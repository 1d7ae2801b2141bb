import Balancer.Converge.TargetGroup
import Balancer.Proofs.Converge.Tags

/-!
# Converging targets

* `Target.alike_ofKey` : plain targets are compared by their keys;
* `TargetsMet current wanted` : the described targets are the wanted ones;
* `TargetsPlan.does_register`, `TargetsPlan.does_deregister` : the two steps of `convergeTargets`;
  `TargetsPlan.met` : the targets are met after them.
-/

namespace Balancer

set_option autoImplicit false

open Resources (IsPlain withTargets withoutTargets)

/-! ## Lists without repetition -/

theorem pair_beq {α β : Type} [BEq α] [BEq β] (a b : α × β) : (a == b) = (a.1 == b.1 && a.2 == b.2) := rfl

instance equivBEq_pair {α β : Type} [BEq α] [BEq β] [EquivBEq α] [EquivBEq β] : EquivBEq (α × β) where
  rfl := by simp
  symm h := by
    rw [pair_beq, Bool.and_eq_true] at h ⊢
    exact ⟨BEq.symm h.1, BEq.symm h.2⟩
  trans h h' := by
    rw [pair_beq, Bool.and_eq_true] at h h' ⊢
    exact ⟨BEq.trans h.1 h'.1, BEq.trans h.2 h'.2⟩

section

variable {α : Type} [BEq α] [EquivBEq α]

omit [EquivBEq α] in
/-- Induction along `eraseDups`, which goes on with the elements that do not repeat the first one. -/
theorem eraseDups_induct {motive : List α → Prop} (nil : motive [])
    (cons : ∀ x xs, motive (xs.filter fun b => !b == x) → motive (x :: xs)) (xs : List α) : motive xs := by
  induction hn : xs.length using Nat.strongRecOn generalizing xs with
  | ind n ih =>
    cases xs with
    | nil => exact nil
    | cons x xs => exact cons x xs (ih _ (hn ▸ Nat.lt_succ_of_le (List.length_filter_le _ xs)) _ rfl)

omit [EquivBEq α] in
theorem eraseDups_sublist (xs : List α) : xs.eraseDups.Sublist xs := by
  induction xs using eraseDups_induct with
  | nil => simp
  | cons x xs ih =>
    rw [List.eraseDups_cons]
    exact (ih.trans List.filter_sublist).cons_cons x

omit [EquivBEq α] in
theorem mem_of_mem_eraseDups {a : α} {xs : List α} (h : a ∈ xs.eraseDups) : a ∈ xs :=
  (eraseDups_sublist xs).subset h

omit [EquivBEq α] in
theorem pairwise_eraseDups (xs : List α) : xs.eraseDups.Pairwise fun a b => (b == a) = false := by
  induction xs using eraseDups_induct with
  | nil => simp
  | cons x xs ih =>
    rw [List.eraseDups_cons]
    refine List.pairwise_cons.2 ⟨fun y hy => ?_, ih⟩
    simpa using (List.mem_filter.1 (mem_of_mem_eraseDups hy)).2

theorem contains_eraseDups (xs : List α) (a : α) : xs.eraseDups.contains a = xs.contains a := by
  induction xs using eraseDups_induct with
  | nil => simp
  | cons x xs ih =>
    rw [List.eraseDups_cons, List.contains_cons, List.contains_cons, ih]
    by_cases hax : a == x
    · simp [hax]
    · rw [Bool.eq_iff_iff]
      simp only [hax, Bool.false_or, List.contains_iff_exists_mem_beq, List.mem_filter, Bool.not_eq_true']
      constructor
      · rintro ⟨b, ⟨hb, -⟩, hab⟩
        exact ⟨b, hb, hab⟩
      · rintro ⟨b, hb, hab⟩
        refine ⟨b, ⟨hb, ?_⟩, hab⟩
        rw [Bool.eq_false_iff]
        exact fun hbx => hax (BEq.trans hab hbx)

omit [EquivBEq α] in
/-- Nothing is left out just if nothing is repeated. -/
theorem length_eraseDups_iff (xs : List α) :
    xs.eraseDups.length = xs.length ↔ xs.Pairwise fun a b => (b == a) = false := by
  constructor
  · intro hlen
    have hpairwise := pairwise_eraseDups xs
    rwa [(eraseDups_sublist xs).eq_of_length hlen] at hpairwise
  · intro h
    induction xs with
    | nil => rfl
    | cons x xs ih =>
      obtain ⟨hx, hxs⟩ := List.pairwise_cons.1 h
      have hfilter : (xs.filter fun b => !b == x) = xs :=
        List.filter_eq_self.2 fun b hb => by rw [hx b hb, Bool.not_false]
      rw [List.eraseDups_cons, hfilter, List.length_cons, ih hxs, List.length_cons]

omit [EquivBEq α] in
/-- Elements at the end that are filtered out anyway make no difference. -/
theorem filter_eraseDups_append {p : α → Bool} (xs ys : List α) (hys : ∀ y ∈ ys, p y = false) :
    (xs ++ ys).eraseDups.filter p = xs.eraseDups.filter p := by
  induction xs using eraseDups_induct generalizing ys with
  | nil =>
    rw [List.nil_append, List.eraseDups_nil, List.filter_nil, List.filter_eq_nil_iff]
    intro y hy
    rw [hys y (mem_of_mem_eraseDups hy)]
    simp
  | cons x xs ih =>
    rw [List.cons_append, List.eraseDups_cons, List.eraseDups_cons, List.filter_append, List.filter_cons,
      List.filter_cons, ih _ fun y hy => hys y (List.mem_filter.1 hy).1]

end

/-! ## Targets and their keys -/

namespace Target

/-- The key of the target that a description names. -/
def keyOf (v : Value) : Except Error (Key × Key) := do (← Target.ofValue v).key

theorem key_ofKey (k : Key × Key) : (ofKey k).key = .ok k := by
  simp [key, ofKey, bind, Except.bind, pure, Except.pure]

/-- The key of a target determines it. -/
theorem eq_ofKey_of_key {t : Target} {k : Key × Key} (h : t.key = .ok k) : t = ofKey k := by
  obtain ⟨id, port⟩ := t
  unfold key at h
  cases hi : id.key with
  | error e => simp [hi, bind, Except.bind] at h
  | ok a =>
    cases hp : port.key with
    | error e => simp [hi, hp, bind, Except.bind] at h
    | ok b =>
      simp only [hi, hp, bind, Except.bind, pure, Except.pure, Except.ok.injEq] at h
      rw [← h, Value.eq_toValue_of_key hi, Value.eq_toValue_of_key hp]
      rfl

theorem ofKey_injective : Function.Injective ofKey := by
  rintro ⟨a, b⟩ ⟨c, d⟩ h
  simp only [ofKey, mk.injEq] at h
  rw [Key.toValue_inj h.1, Key.toValue_inj h.2]

theorem isPlain_toValue (t : Target) : IsPlain t.toValue :=
  ⟨_, t.id, t.port, rfl, rfl, rfl, rfl⟩

/-- The parts of a plain target with a key. -/
theorem plain_of_keyOf {x : Value} {k : Key × Key} (hx : IsPlain x) (hk : keyOf x = .ok k) :
    ∃ fs, x = .object fs ∧ fs.length = 2 ∧ Entries.find? "Id" fs = some k.1.toValue ∧
      Entries.find? "Port" fs = some k.2.toValue := by
  obtain ⟨fs, id, port, rfl, hlen, hid, hport⟩ := hx
  have hof : Target.ofValue (.object fs) = .ok ⟨id, port⟩ := by
    simp [Target.ofValue, Fields.item, hid, hport, bind, Except.bind, pure, Except.pure]
  simp only [keyOf, hof, bind, Except.bind] at hk
  have := eq_ofKey_of_key hk
  simp only [ofKey, mk.injEq] at this
  exact ⟨fs, rfl, hlen, by rw [hid, this.1], by rw [hport, this.2]⟩

theorem ofKey_alike {x : Value} {k k' : Key × Key} (hx : IsPlain x) (hk : keyOf x = .ok k) :
    (ofKey k').toValue.alike x = (k' == k) := by
  obtain ⟨fs, rfl, hlen, hid, hport⟩ := plain_of_keyOf hx hk
  simp [toValue, ofKey, Value.alike, Value.alikeFields, Value.alikeField, hlen, hid, hport, Key.alike_toValue]
  rfl

theorem alike_ofKey {x : Value} {k k' : Key × Key} (hx : IsPlain x) (hk : keyOf x = .ok k) :
    x.alike (ofKey k').toValue = (k == k') := by
  obtain ⟨fs, rfl, hlen, hid, hport⟩ := plain_of_keyOf hx hk
  obtain ⟨f, g, rfl⟩ := List.length_eq_two.1 hlen
  obtain ⟨f, v⟩ := f
  obtain ⟨g, w⟩ := g
  -- one of the two fields is the identifier, the other one the port
  have hfields : (f = "Id" ∧ g = "Port" ∧ v = k.1.toValue ∧ w = k.2.toValue) ∨
      (f = "Port" ∧ g = "Id" ∧ v = k.2.toValue ∧ w = k.1.toValue) := by
    simp only [Entries.find?] at hid hport
    by_cases h1 : f = "Id" <;> by_cases h2 : g = "Id" <;> by_cases h3 : f =
      "Port" <;> by_cases h4 : g = "Port" <;>
      simp_all
  rcases hfields with ⟨rfl, rfl, rfl, rfl⟩ | ⟨rfl, rfl, rfl, rfl⟩
  · simp [toValue, ofKey, Value.alike, Value.alikeFields, Value.alikeField, Entries.find?, Key.alike_toValue]
    rfl
  · simp [toValue, ofKey, Value.alike, Value.alikeFields, Value.alikeField, Entries.find?, Key.alike_toValue]
    exact Bool.and_comm ..

end Target

namespace Converge

/-- Described targets that are plain and have keys. -/
def Described (current : List Value) (ks : List (Key × Key)) : Prop :=
  (∀ x ∈ current, IsPlain x) ∧ targetKeys current = .ok ks

/-- The described targets are the wanted ones. -/
def TargetsMet (current : List Value) (wanted : List (Key × Key)) : Prop :=
  ∃ ks, Described current ks ∧ ∀ k, ks.contains k = wanted.contains k

/-- Targets that are in the first list and not in the second. -/
def missingKeys (wanted there : List (Key × Key)) : List (Key × Key) :=
  wanted.eraseDups.filter fun t => !there.contains t

section

variable {current : List Value} {ks ks' wanted : List (Key × Key)}

theorem described_nil : Described [] [] := ⟨by simp, rfl⟩

theorem Described.cons_iff {x : Value} {current : List Value} {k : Key × Key} {ks : List (Key × Key)} :
    Described (x :: current) (k :: ks) ↔ (IsPlain x ∧ Target.keyOf x = .ok k) ∧ Described current ks := by
  unfold Described targetKeys
  rw [mapM_eq_ok_iff, mapM_eq_ok_iff, List.forall₂_cons, List.forall_mem_cons]
  exact ⟨fun ⟨⟨hx, hp⟩, hk, hks⟩ => ⟨⟨hx, hk⟩, hp, hks⟩, fun ⟨⟨hx, hk⟩, hp, hks⟩ => ⟨⟨hx, hp⟩, hk, hks⟩⟩

theorem Described.length_eq (h : Described current ks) : current.length = ks.length :=
  (mapM_eq_ok_iff.1 h.2).length_eq

theorem described_ofKey (ks : List (Key × Key)) :
    Described (ks.map fun k => (Target.ofKey k).toValue) ks := by
  induction ks with
  | nil => exact described_nil
  | cons k ks ih => exact Described.cons_iff.2 ⟨⟨Target.isPlain_toValue _, Target.key_ofKey k⟩, ih⟩

theorem Described.append {current' : List Value} (h : Described current ks) (h' : Described current' ks') :
    Described (current ++ current') (ks ++ ks') := by
  induction current generalizing ks with
  | nil =>
    cases ks with
    | nil => exact h'
    | cons k ks => exact absurd h.length_eq (by simp)
  | cons x current ih =>
    cases ks with
    | nil => exact absurd h.length_eq (by simp)
    | cons k ks =>
      obtain ⟨hx, h⟩ := Described.cons_iff.1 h
      exact Described.cons_iff.2 ⟨hx, ih h⟩

theorem Described.any_alike (h : Described current ks) (k : Key × Key) :
    (current.any fun x => x.alike (Target.ofKey k).toValue) = ks.contains k := by
  induction current generalizing ks with
  | nil =>
    cases ks with
    | nil => rfl
    | cons k ks => exact absurd h.length_eq (by simp)
  | cons x current ih =>
    cases ks with
    | nil => exact absurd h.length_eq (by simp)
    | cons k' ks =>
      obtain ⟨⟨hx, hk⟩, h⟩ := Described.cons_iff.1 h
      rw [List.any_cons, List.contains_cons, ih h, Target.alike_ofKey hx hk, BEq.comm]

/-- Targets that are not there yet come last. -/
theorem Described.withTargets_eq {new : List (Key × Key)} (h : Described current ks)
    (hd : new.Pairwise fun a b => (b == a) = false) (hnew : ∀ k ∈ new, ks.contains k = false) :
    withTargets current (new.map Target.ofKey) = current ++ new.map fun k => (Target.ofKey k).toValue := by
  induction new generalizing current ks with
  | nil => simp [withTargets]
  | cons k new ih =>
    obtain ⟨hk, hd⟩ := List.pairwise_cons.1 hd
    obtain ⟨hnk, hnew⟩ := List.forall_mem_cons.1 hnew
    have hstep := ih (h.append (described_ofKey [k])) hd fun k' hk' => by
      simpa [hnew k' hk'] using hk k' hk'
    unfold withTargets at hstep ⊢
    rw [List.map_cons, List.foldl_cons, h.any_alike, hnk]
    simpa using hstep

theorem Described.withoutTargets {gone : List (Key × Key)} (h : Described current ks) :
    Described (withoutTargets current (gone.map Target.ofKey)) (ks.filter fun k => !gone.contains k) := by
  induction current generalizing ks with
  | nil =>
    cases ks with
    | nil => exact described_nil
    | cons k ks => exact absurd h.length_eq (by simp)
  | cons x current ih =>
    cases ks with
    | nil => exact absurd h.length_eq (by simp)
    | cons k ks =>
      obtain ⟨⟨hx, hk⟩, h⟩ := Described.cons_iff.1 h
      have hany : ((gone.map Target.ofKey).any fun t => t.toValue.alike x) = gone.contains k := by
        rw [List.any_map, List.contains_eq_any_beq, List.any_congr rfl]
        intro k'
        rw [Function.comp, Target.ofKey_alike hx hk, BEq.comm]
      have ih := ih h
      unfold Resources.withoutTargets at ih ⊢
      rw [List.filter_cons, List.filter_cons, hany]
      cases gone.contains k with
      | true => simpa using ih
      | false => simpa using Described.cons_iff.2 ⟨⟨hx, hk⟩, ih⟩

theorem missingFrom_eq (wanted there : List (Key × Key)) :
    missingFrom wanted there = Target.sorted ((missingKeys wanted there).map Target.ofKey) := rfl

theorem exists_of_missingFrom {wanted there : List (Key × Key)} {ts : List Target}
    (h : missingFrom wanted there = .ok ts) :
    ∃ new : List (Key × Key), ts = new.map Target.ofKey ∧ new.Perm (missingKeys wanted there) := by
  have : Relation.Comp (· = List.map Target.ofKey ·) List.Perm ts (missingKeys wanted there) := by
    rw [List.eq_map_comp_perm]
    exact sortBy_perm h
  exact this

theorem pairwise_missingKeys (wanted there : List (Key × Key)) :
    (missingKeys wanted there).Pairwise fun a b => (b == a) = false :=
  List.Pairwise.filter _ (pairwise_eraseDups wanted)

theorem mem_missingKeys {wanted there : List (Key × Key)} {k : Key × Key} (h : k ∈ missingKeys wanted there) :
    k ∈ wanted ∧ there.contains k = false := by
  obtain ⟨hk, ht⟩ := List.mem_filter.1 h
  exact ⟨mem_of_mem_eraseDups hk, by simpa using ht⟩

theorem contains_congr {xs : List (Key × Key)} {a b : Key × Key} (h : (a == b) = true) :
    xs.contains a = xs.contains b := by
  rw [List.contains_eq_any_beq, List.contains_eq_any_beq]
  exact List.any_congr rfl fun x => BEq.congr_left h

theorem contains_missingKeys (wanted there : List (Key × Key)) (k : Key × Key) :
    (missingKeys wanted there).contains k = (wanted.contains k && !there.contains k) := by
  rw [← contains_eraseDups wanted, Bool.eq_iff_iff, Bool.and_eq_true, Bool.not_eq_true']
  simp only [missingKeys, List.contains_iff_exists_mem_beq, List.mem_filter, Bool.not_eq_true']
  constructor
  · rintro ⟨x, ⟨hx, hn⟩, hkx⟩
    exact ⟨⟨x, hx, hkx⟩, by rw [contains_congr hkx, hn]⟩
  · rintro ⟨⟨x, hx, hkx⟩, hn⟩
    exact ⟨x, ⟨hx, by rw [← contains_congr hkx, hn]⟩, hkx⟩

theorem missingKeys_eq_nil {wanted there : List (Key × Key)} (h : ∀ k ∈ wanted, there.contains k = true) :
    missingKeys wanted there = [] := by
  rw [List.eq_nil_iff_forall_not_mem]
  intro k hk
  obtain ⟨hw, ht⟩ := mem_missingKeys hk
  rw [h k hw] at ht
  cases ht

/-- Targets that are wanted are not missing from the wanted ones. -/
theorem missingKeys_append {new : List (Key × Key)} (h : ∀ k ∈ new, wanted.contains k = true) :
    missingKeys (ks ++ new) wanted = missingKeys ks wanted :=
  filter_eraseDups_append ks new fun k hk => by rw [h k hk]; rfl

theorem contains_perm {xs ys : List (Key × Key)} (h : xs.Perm ys) (k : Key × Key) :
    xs.contains k = ys.contains k := by
  rw [List.contains_eq_any_beq, List.contains_eq_any_beq]
  exact h.any_eq

end

/-! ## The program -/

/-- With some more targets registered. -/
def registered (s : Resources) (arn : String) (new : List (Key × Key)) : Resources :=
  if new.isEmpty then s else s.putTargets (.text arn)
    (withTargets (s.targetsOf (.text arn)) (new.map Target.ofKey))

/-- Without some targets. -/
def deregistered (s : Resources) (arn : String) (gone : List (Key × Key)) : Resources :=
  if gone.isEmpty then s else s.putTargets (.text arn)
    (withoutTargets (s.targetsOf (.text arn)) (gone.map Target.ofKey))

/-- What `convergeTargets` is about to do: the described targets, what is to be
registered and what is to go. -/
structure TargetsPlan (s : Resources) (arn : String) (wanted ks new gone : List (Key × Key)) : Prop where
  described : Described (s.targetsOf (.text arn)) ks
  new_eq : missingFrom wanted ks = .ok (new.map Target.ofKey)
  gone_eq : missingFrom ks wanted = .ok (gone.map Target.ofKey)
  there : new ≠ [] → (s.targets.get? (.text arn)).isSome

section

variable {s u t : Resources} {arn : String} {wanted ks new gone : List (Key × Key)} {ts : List Target}

theorem convergeTargets_eq (arn desired : Value) : convergeTargets arn desired = do
    let current ← Program.answer (.targets arn)
    let current ← (targetKeys current : Except Error _)
    let desired ← (desired.elements : Except Error _)
    let wanted ← (targetKeys desired : Except Error _)
    let additions ← (missingFrom wanted current : Except Error _)
    let removals ← (missingFrom current wanted : Except Error _)
    Program.doIf (!additions.isEmpty) (Program.answer (.registerTargets arn (targetList additions)))
    Program.doIf (!removals.isEmpty) (Program.answer (.deregisterTargets arn (targetList removals)))
    return !additions.isEmpty || !removals.isEmpty := by
  simp only [Program.doIf_bind]
  rfl

theorem TargetsPlan.new_perm (h : TargetsPlan s arn wanted ks new gone) :
    new.Perm (missingKeys wanted ks) := by
  obtain ⟨new', h', hp⟩ := exists_of_missingFrom h.new_eq
  rwa [List.map_injective_iff.2 Target.ofKey_injective h']

theorem TargetsPlan.gone_perm (h : TargetsPlan s arn wanted ks new gone) :
    gone.Perm (missingKeys ks wanted) := by
  obtain ⟨gone', h', hp⟩ := exists_of_missingFrom h.gone_eq
  rwa [List.map_injective_iff.2 Target.ofKey_injective h']

/-- What is registered then. -/
theorem TargetsPlan.registered_eq (h : TargetsPlan s arn wanted ks new gone) :
    Described ((registered s arn new).targetsOf (.text arn)) (ks ++ new) := by
  have hp := h.new_perm
  unfold registered
  split
  · rename_i hnil
    rw [List.isEmpty_iff.1 hnil, List.append_nil]
    exact h.described
  · have hd : new.Pairwise fun a b => (b == a) = false :=
      (hp.pairwise_iff fun {a b} hab => by rwa [BEq.comm]).2 (pairwise_missingKeys wanted ks)
    have hnew : ∀ k ∈ new, ks.contains k = false := fun k hk => (mem_missingKeys (hp.mem_iff.1 hk)).2
    rw [Resources.targetsOf, Resources.putTargets_targets, Table.get?_insert_self, Option.getD_some,
      h.described.withTargets_eq hd hnew]
    exact h.described.append (described_ofKey new)

theorem TargetsPlan.gone_nil (h : TargetsPlan s arn wanted ks new gone)
    (hnone : s.targets.get? (.text arn) = none) :
    gone = [] := by
  have hks : ks = [] := by
    have := h.described.length_eq
    rw [Resources.targetsOf, hnone] at this
    exact List.length_eq_zero_iff.1 this.symm
  have hp := h.gone_perm
  rw [hks] at hp
  exact List.perm_nil.1 hp

theorem TargetsPlan.does_register (h : TargetsPlan s arn wanted ks new gone) :
    (Program.doIf (!(new.map Target.ofKey).isEmpty)
      (Program.answer (.registerTargets (.text arn) (targetList (new.map Target.ofKey))))).Does s ()
      (registered s arn new) := by
  rw [List.isEmpty_map, registered]
  refine Program.does_doIf (fun hb => ?_) fun hb => ?_
  · have hne : new ≠ [] := by simpa using hb
    rw [if_neg (by simpa using hne)]
    obtain ⟨current, hc⟩ := Option.isSome_iff_exists.1 (h.there hne)
    refine Program.does_answer ?_
    rw [Resources.perform_registerTargets s arn (by simpa using hne), Resources.targetsOf, hc]
    rfl
  · rw [if_pos (by simpa using hb)]

theorem TargetsPlan.does_deregister (h : TargetsPlan s arn wanted ks new gone) :
    (Program.doIf (!(gone.map Target.ofKey).isEmpty)
      (Program.answer (.deregisterTargets (.text arn) (targetList (gone.map Target.ofKey))))).Does
        (registered s arn new) ()
        (deregistered (registered s arn new) arn gone) := by
  rw [List.isEmpty_map, deregistered]
  refine Program.does_doIf (fun hb => ?_) fun hb => ?_
  · have hne : gone ≠ [] := by simpa using hb
    rw [if_neg (by simpa using hne)]
    have hsome : ((registered s arn new).targets.get? (.text arn)).isSome := by
      unfold registered
      split
      · rw [Option.isSome_iff_ne_none]
        exact fun hnone => hne (h.gone_nil hnone)
      · simp
    obtain ⟨current, hc⟩ := Option.isSome_iff_exists.1 hsome
    refine Program.does_answer ?_
    rw [Resources.perform_deregisterTargets, Resources.targetsOf, hc]
    rfl
  · rw [if_pos (by simpa using hb)]

/-- After both steps the targets are the wanted ones. -/
theorem TargetsPlan.met (h : TargetsPlan s arn wanted ks new gone) :
    TargetsMet ((deregistered (registered s arn new) arn gone).targetsOf (.text arn)) wanted := by
  have hreg := h.registered_eq
  refine ⟨(ks ++ new).filter fun k => !gone.contains k, ?_, fun k => ?_⟩
  · unfold deregistered
    split
    · rename_i hnil
      rw [List.isEmpty_iff.1 hnil]
      simpa using hreg
    · rw [Resources.targetsOf, Resources.putTargets_targets, Table.get?_insert_self, Option.getD_some]
      exact hreg.withoutTargets
  · have hfilter : ((ks ++ new).filter fun k => !gone.contains k).contains k =
        ((ks ++ new).contains k && !gone.contains k) := by
      rw [Bool.eq_iff_iff, Bool.and_eq_true, Bool.not_eq_true']
      simp only [List.contains_iff_exists_mem_beq, List.mem_filter, Bool.not_eq_true']
      constructor
      · rintro ⟨x, ⟨hx, hn⟩, hkx⟩
        exact ⟨⟨x, hx, hkx⟩, by rw [contains_congr hkx, hn]⟩
      · rintro ⟨⟨x, hx, hkx⟩, hn⟩
        exact ⟨x, ⟨hx, by rw [← contains_congr hkx, hn]⟩, hkx⟩
    rw [hfilter, List.contains_append, contains_perm h.new_perm, contains_perm h.gone_perm,
      contains_missingKeys, contains_missingKeys]
    cases ks.contains k <;> cases wanted.contains k <;> rfl

/-- Where the targets are the wanted ones nothing is to be done. -/
theorem TargetsMet.plan (h : TargetsMet (s.targetsOf (.text arn)) wanted) :
    ∃ ks, TargetsPlan s arn wanted ks [] [] := by
  obtain ⟨ks, hks, hsame⟩ := h
  have hmem : ∀ {xs : List (Key × Key)} {k}, k ∈ xs → xs.contains k = true := fun hk =>
    List.contains_iff_exists_mem_beq.2 ⟨_, hk, BEq.rfl⟩
  refine ⟨ks, hks, ?_, ?_, fun h => absurd rfl h⟩
  · rw [missingFrom_eq, missingKeys_eq_nil fun k hk => by rw [hsame k, hmem hk]]
    rfl
  · rw [missingFrom_eq, missingKeys_eq_nil fun k hk => by rw [← hsame k, hmem hk]]
    rfl

/-- Between the two steps only the second one is to be done. -/
theorem TargetsPlan.registered (h : TargetsPlan s arn wanted ks new gone) :
    TargetsPlan (registered s arn new) arn wanted (ks ++ new) [] gone := by
  have hwanted : ∀ k ∈ new, wanted.contains k = true := fun k hk =>
    List.contains_iff_exists_mem_beq.2 ⟨k, (mem_missingKeys (h.new_perm.mem_iff.1 hk)).1, BEq.rfl⟩
  refine ⟨h.registered_eq, ?_, ?_, fun h => absurd rfl h⟩
  · rw [missingFrom_eq, missingKeys_eq_nil fun k hk => ?_]
    · rfl
    · rw [List.contains_append, contains_perm h.new_perm, contains_missingKeys]
      have : wanted.contains k = true := List.contains_iff_exists_mem_beq.2 ⟨k, hk, BEq.rfl⟩
      rw [this]
      cases ks.contains k <;> rfl
  · rw [missingFrom_eq, missingKeys_append hwanted]
    exact h.gone_eq

theorem yields_convergeTargets {b : Bool} (hp : ∀ x ∈ s.targetsOf (.text arn), IsPlain x) :
    (convergeTargets (.text arn) (targetList ts)).Yields s b t ↔
      ∃ wanted ks new gone, targetKeys (ts.map Target.toValue) = .ok wanted ∧
        TargetsPlan s arn wanted ks new gone ∧
        t = deregistered (registered s arn new) arn gone ∧ b = (!new.isEmpty || !gone.isEmpty) := by
  simp only [convergeTargets_eq, (Program.does_answer (Resources.perform_targets s arn)).yields_bind_iff,
    Program.yields_lift_bind, targetList, Value.elements_list, Except.ok.injEq, exists_eq_left']
  constructor
  · rintro ⟨ks, hks, wanted, hw, additions, hadd, removals, hrem, h⟩
    obtain ⟨new, rfl, hnew⟩ := exists_of_missingFrom hadd
    obtain ⟨gone, rfl, hgone⟩ := exists_of_missingFrom hrem
    by_cases hthere : new ≠ [] → (s.targets.get? (.text arn)).isSome
    · have hplan : TargetsPlan s arn wanted ks new gone := ⟨⟨hp, hks⟩, hadd, hrem, hthere⟩
      have h := hplan.does_register.yields_bind_iff.1 h
      have h := hplan.does_deregister.yields_bind_iff.1 h
      rw [Program.yields_pure, List.isEmpty_map, List.isEmpty_map] at h
      exact ⟨wanted, ks, new, gone, hw, hplan, h.2, h.1⟩
    · obtain ⟨hne, hnone⟩ := Classical.not_imp.1 hthere
      have hne' : new.map Target.ofKey ≠ [] := by simpa using hne
      have hreg := Resources.perform_registerTargets s arn hne'
      rw [Option.not_isSome_iff_eq_none.1 hnone] at hreg
      obtain ⟨_, t', hstep, -⟩ := Program.yields_bind.1 h
      have hb : (!(new.map Target.ofKey).isEmpty) = true := by simpa using hne
      rw [hb, Program.doIf, if_pos rfl, Program.yields_answer] at hstep
      rw [targetList] at hreg
      rw [hreg] at hstep
      cases hstep
  · rintro ⟨wanted, ks, new, gone, hw, hplan, rfl, rfl⟩
    refine ⟨ks, hplan.described.2, wanted, hw, _, hplan.new_eq, _, hplan.gone_eq, ?_⟩
    refine hplan.does_register.yields_bind_iff.2 (hplan.does_deregister.yields_bind_iff.2 ?_)
    rw [Program.yields_pure, List.isEmpty_map, List.isEmpty_map]
    exact ⟨rfl, rfl⟩

theorem visits_convergeTargets (hp : ∀ x ∈ s.targetsOf (.text arn), IsPlain x)
    (h : (convergeTargets (.text arn) (targetList ts)).Visits s u) :
    u = s ∨ ∃ wanted ks new gone, targetKeys (ts.map Target.toValue) = .ok wanted ∧
      TargetsPlan s arn wanted ks new gone ∧
      (u = registered s arn new ∨ u = deregistered (registered s arn new) arn gone) := by
  rw [convergeTargets_eq] at h
  rcases (Program.does_answer (Resources.perform_targets s arn)).visits_bind h with rfl | h
  · exact .inl rfl
  rcases Program.visits_lift_bind.1 h with rfl | ⟨ks, hks, h⟩
  · exact .inl rfl
  rcases Program.visits_lift_bind.1 h with rfl | ⟨_, hts, h⟩
  · exact .inl rfl
  cases hts
  rcases Program.visits_lift_bind.1 h with rfl | ⟨wanted, hw, h⟩
  · exact .inl rfl
  rcases Program.visits_lift_bind.1 h with rfl | ⟨additions, hadd, h⟩
  · exact .inl rfl
  rcases Program.visits_lift_bind.1 h with rfl | ⟨removals, hrem, h⟩
  · exact .inl rfl
  obtain ⟨new, rfl, hnew⟩ := exists_of_missingFrom hadd
  obtain ⟨gone, rfl, hgone⟩ := exists_of_missingFrom hrem
  by_cases hthere : new ≠ [] → (s.targets.get? (.text arn)).isSome
  · have hplan : TargetsPlan s arn wanted ks new gone := ⟨⟨hp, hks⟩, hadd, hrem, hthere⟩
    rcases hplan.does_register.visits_bind h with rfl | h
    · exact .inl rfl
    refine .inr ⟨wanted, ks, new, gone, hw, hplan, ?_⟩
    exact hplan.does_deregister.visits_bind h
  · obtain ⟨hne, hnone⟩ := Classical.not_imp.1 hthere
    have hne' : new.map Target.ofKey ≠ [] := by simpa using hne
    have hreg := Resources.perform_registerTargets s arn hne'
    rw [Option.not_isSome_iff_eq_none.1 hnone] at hreg
    have hb : (!(new.map Target.ofKey).isEmpty) = true := by simpa using hne
    rw [hb, Program.doIf, if_pos rfl] at h
    rcases Program.visits_answer_bind.1 h with rfl | rfl | ⟨a, t', hstep, -⟩
    · exact .inl rfl
    · rw [hreg]
      exact .inl rfl
    · rw [hreg] at hstep
      cases hstep

theorem rests_convergeTargets (h : TargetsMet (u.targetsOf (.text arn)) wanted)
    (hw : targetKeys (ts.map Target.toValue) = .ok wanted) :
    (convergeTargets (.text arn) (targetList ts)).Ends u false [] u := by
  obtain ⟨ks, hplan⟩ := h.plan
  rw [convergeTargets_eq]
  refine Program.ends_answer_bind.2 ⟨_, u, [], Resources.perform_targets u arn, ?_, rfl⟩
  refine Program.ends_lift_bind.2 ⟨ks, hplan.described.2, Program.ends_lift_bind.2 ⟨_, rfl, ?_⟩⟩
  refine Program.ends_lift_bind.2 ⟨wanted, hw, Program.ends_lift_bind.2 ⟨_, hplan.new_eq, ?_⟩⟩
  refine Program.ends_lift_bind.2 ⟨_, hplan.gone_eq, ?_⟩
  exact Program.ends_pure.2 ⟨rfl, rfl, rfl⟩

theorem resumes_convergeTargets (hp : ∀ x ∈ s.targetsOf (.text arn), IsPlain x) :
    (convergeTargets (.text arn) (targetList ts)).Resumes (fun _ => ()) s := by
  intro b t u ht hu
  rcases visits_convergeTargets hp hu with rfl | ⟨wanted, ks, new, gone, hw, hplan, hu⟩
  · exact ⟨b, ht, rfl⟩
  have hrun := (yields_convergeTargets (b := !new.isEmpty || !gone.isEmpty) hp).2
    ⟨wanted, ks, new, gone, hw, hplan, rfl, rfl⟩
  obtain ⟨rfl, rfl⟩ := hrun.unique ht
  rcases hu with rfl | rfl
  · have hplan' := hplan.registered
    exact ⟨_, (yields_convergeTargets hplan'.described.1).2 ⟨wanted, _, [], gone, hw, hplan', rfl, rfl⟩, rfl⟩
  · exact ⟨false, ⟨[], rests_convergeTargets hplan.met hw⟩, rfl⟩

end

end Converge

end Balancer
