/-!
# Tables

`Table κ β` maps keys of `κ` to values of `β` and keeps the keys in the order in which they came in; a key
that is written again keeps its place and its first form. Keys count as one if they are equal by `==`. The
view of a table is `Table.get?`: `get?_insert`, `get?_erase`, `get?_map`, `get?_ofList` and `get?_update` say
what each operation does to it; where `==` is equality, `mem_entries_iff` and `mem_keys_iff` tell which
entries and keys there are.
-/

namespace Balancer

set_option autoImplicit false

universe u v w
variable {κ : Type u} {β : Type v} {γ : Type w}

/-! ## Lists of entries -/

namespace Entries

variable [BEq κ]

/-- The first value of a key. -/
def find? (k : κ) : List (κ × β) → Option β
  | [] => none
  | e :: es => if e.1 == k then some e.2 else find? k es

/-- The entries with the value of `k` replaced, or with a new last entry. -/
def put (k : κ) (x : β) : List (κ × β) → List (κ × β)
  | [] => [(k, x)]
  | e :: es => if e.1 == k then (e.1, x) :: es else e :: put k x es

/-- The entries without those of `k`. -/
def drop (k : κ) (es : List (κ × β)) : List (κ × β) := es.filter fun e => !(e.1 == k)

/-- Entries in which the last value of a key counts, at the place of its first. -/
def collect (es : List (κ × β)) : List (κ × β) := es.foldl (fun acc e => put e.1 e.2 acc) []

/-- No two entries have one key. -/
def Distinct (es : List (κ × β)) : Prop := es.Pairwise fun a b => (a.1 == b.1) = false

omit [BEq κ] in
def keys (es : List (κ × β)) : List κ := es.map (·.1)

/-- A row of entries in order with one more entry, in front of those whose keys are not less. -/
def place (e : String × β) : List (String × β) → List (String × β)
  | [] => [e]
  | d :: row => if e.1 ≤ d.1 then e :: d :: row else d :: place e row

/-- Entries in the order of their keys. -/
def sorted (es : List (String × β)) : List (String × β) := es.foldr place []

/-- Every key of the new entries is an old one or the given one. -/
theorem mem_put {k : κ} {x : β} {es : List (κ × β)} {e : κ × β} (h : e ∈ put k x es) :
    e.1 = k ∨ ∃ d ∈ es, e.1 = d.1 := by
  induction es with
  | nil => simp [put] at h; simp [h]
  | cons d es ih =>
    unfold put at h
    split at h
    · rcases List.mem_cons.1 h with rfl | h
      · exact .inr ⟨d, by simp, rfl⟩
      · exact .inr ⟨e, by simp [h], rfl⟩
    · rcases List.mem_cons.1 h with rfl | h
      · exact .inr ⟨e, by simp, rfl⟩
      · rcases ih h with h | ⟨d', hd, he⟩
        · exact .inl h
        · exact .inr ⟨d', by simp [hd], he⟩

theorem Distinct.put {k : κ} {x : β} {es : List (κ × β)} (h : Distinct es) : Distinct (put k x es) := by
  induction es with
  | nil => simp [Entries.put, Distinct]
  | cons d es ih =>
    obtain ⟨hd, hes⟩ := List.pairwise_cons.1 h
    unfold Entries.put
    split
    · exact List.pairwise_cons.2 ⟨hd, hes⟩
    · rename_i hk
      refine List.pairwise_cons.2 ⟨fun e he => ?_, ih hes⟩
      rcases mem_put he with he | ⟨d', hd', he⟩
      · rw [he]
        simpa using hk
      · rw [he]
        exact hd d' hd'

theorem Distinct.foldl_put {es acc : List (κ × β)} (h : Distinct acc) :
    Distinct (es.foldl (fun acc e => Entries.put e.1 e.2 acc) acc) := by
  induction es generalizing acc with
  | nil => exact h
  | cons e es ih => exact ih h.put

theorem distinct_collect (es : List (κ × β)) : Distinct (collect es) := Distinct.foldl_put List.Pairwise.nil

theorem find?_append (k : κ) (es fs : List (κ × β)) : find? k (es ++ fs) = (find? k es).or (find? k fs) := by
  induction es with
  | nil => simp [find?]
  | cons e es ih =>
    simp only [List.cons_append, find?, ih]
    split <;> simp

section

variable [EquivBEq κ]

/-- An entry of another key may be looked at before or after a case about this one. -/
theorem ite_find?_cons {k : κ} {e : κ × β} (h : ¬e.1 == k) (k' : κ) (y : Option β) (es : List (κ × β)) :
    (if e.1 == k' then some e.2 else if k == k' then y else find? k' es) =
      if k == k' then y else find? k' (e :: es) := by
  by_cases h' : e.1 == k'
  · rw [if_pos h', if_neg, find?, if_pos h']
    intro hk
    exact h (BEq.trans h' (BEq.symm hk))
  · rw [if_neg h', find?, if_neg h']

theorem find?_put (k k' : κ) (x : β) (es : List (κ × β)) :
    find? k' (put k x es) = if k == k' then some x else find? k' es := by
  induction es with
  | nil => simp [put, find?]
  | cons e es ih =>
    unfold put
    by_cases h : e.1 == k
    · rw [if_pos h]
      simp only [find?]
      rw [BEq.congr_left h]
      split <;> rfl
    · rw [if_neg h, find?, ih, ite_find?_cons h]

theorem find?_drop (k k' : κ) (es : List (κ × β)) :
    find? k' (drop k es) = if k == k' then none else find? k' es := by
  induction es with
  | nil => simp [drop, find?]
  | cons e es ih =>
    by_cases h : e.1 == k
    · have : drop k (e :: es) = drop k es := by simp [drop, h]
      rw [this, ih]
      simp only [find?]
      rw [BEq.congr_left h]
      split <;> rfl
    · have : drop k (e :: es) = e :: drop k es := by simp [drop, h]
      rw [this, find?, ih, ite_find?_cons h]

theorem find?_foldl_put (k : κ) (es acc : List (κ × β)) :
    find? k (es.foldl (fun acc e => put e.1 e.2 acc) acc) = (find? k es.reverse).or (find? k acc) := by
  induction es generalizing acc with
  | nil => simp [find?]
  | cons e es ih =>
    rw [List.foldl_cons, ih, find?_put, List.reverse_cons, find?_append]
    cases find? k es.reverse with
    | some x => simp
    | none =>
      simp only [find?, Option.none_or]
      split <;> simp

end

theorem find?_map (f : β → γ) (k : κ) (es : List (κ × β)) :
    find? k (es.map fun e => (e.1, f e.2)) = (find? k es).map f := by
  induction es with
  | nil => rfl
  | cons e es ih =>
    simp only [List.map_cons, find?, ih]
    split <;> rfl

theorem find?_eq_none_iff {k : κ} {es : List (κ × β)} :
    find? k es = none ↔ ∀ e ∈ es, (e.1 == k) = false := by
  induction es with
  | nil => simp [find?]
  | cons e es ih =>
    simp only [find?, List.forall_mem_cons]
    by_cases h : e.1 == k
    · simp [h]
    · simp [h, ih]

theorem mem_of_find? {k : κ} {x : β} {es : List (κ × β)} (h : find? k es = some x) :
    ∃ k', (k' == k) = true ∧ (k', x) ∈ es := by
  induction es with
  | nil => simp [find?] at h
  | cons e es ih =>
    simp only [find?] at h
    split at h
    · rename_i hk
      cases h
      exact ⟨e.1, hk, by simp⟩
    · obtain ⟨k', hk, hm⟩ := ih h
      exact ⟨k', hk, by simp [hm]⟩

theorem find?_of_mem [EquivBEq κ] {k k' : κ} {x : β} {es : List (κ × β)} (hd : Distinct es)
    (hk : (k' == k) = true) (h : (k', x) ∈ es) : find? k es = some x := by
  induction es with
  | nil => simp at h
  | cons e es ih =>
    obtain ⟨he, hes⟩ := List.pairwise_cons.1 hd
    simp only [find?]
    rcases List.mem_cons.1 h with rfl | h
    · rw [if_pos hk]
    · rw [if_neg, ih hes h]
      intro hek
      have := he _ h
      rw [BEq.trans hek (BEq.symm hk)] at this
      cases this

end Entries

/-! ## Tables -/

/-- Keys mapped to values, in the order in which the keys came in. -/
structure Table (κ : Type u) (β : Type v) [BEq κ] where
  entries : List (κ × β)
  distinct : Entries.Distinct entries

namespace Table

variable [BEq κ]

def empty : Table κ β := ⟨[], List.Pairwise.nil⟩

instance : EmptyCollection (Table κ β) := ⟨empty⟩

instance : Inhabited (Table κ β) := ⟨empty⟩

def get? (t : Table κ β) (k : κ) : Option β := Entries.find? k t.entries

def contains (t : Table κ β) (k : κ) : Bool := (t.get? k).isSome

def keys (t : Table κ β) : List κ := Entries.keys t.entries

def values (t : Table κ β) : List β := t.entries.map (·.2)

def isEmpty (t : Table κ β) : Bool := t.entries.isEmpty

def insert (t : Table κ β) (k : κ) (x : β) : Table κ β := ⟨Entries.put k x t.entries, t.distinct.put⟩

def erase (t : Table κ β) (k : κ) : Table κ β := ⟨Entries.drop k t.entries, t.distinct.filter _⟩

/-- The table of a list of entries; of several values for a key the last counts. -/
def ofList (es : List (κ × β)) : Table κ β := ⟨Entries.collect es, Entries.distinct_collect es⟩

/-- The entries of `t` overwritten and extended by those of `u`. -/
def update (t u : Table κ β) : Table κ β :=
  ⟨u.entries.foldl (fun acc e => Entries.put e.1 e.2 acc) t.entries, t.distinct.foldl_put⟩

def map (f : β → γ) (t : Table κ β) : Table κ γ :=
  ⟨t.entries.map fun e => (e.1, f e.2), by simpa [Entries.Distinct, List.pairwise_map] using t.distinct⟩

/-- The entries that satisfy a condition. -/
def filter (p : κ → β → Bool) (t : Table κ β) : Table κ β :=
  ⟨t.entries.filter fun e => p e.1 e.2, t.distinct.filter _⟩

@[simp] theorem get?_empty (k : κ) : (∅ : Table κ β).get? k = none := rfl

theorem get?_map (f : β → γ) (t : Table κ β) (k : κ) : (t.map f).get? k = (t.get? k).map f :=
  Entries.find?_map f k t.entries

section

variable [EquivBEq κ]

theorem get?_insert (t : Table κ β) (k k' : κ) (x : β) :
    (t.insert k x).get? k' = if k == k' then some x else t.get? k' :=
  Entries.find?_put k k' x t.entries

@[simp] theorem get?_insert_self (t : Table κ β) (k : κ) (x : β) : (t.insert k x).get? k = some x := by
  simp [get?_insert]

/-- After an insertion a key has what was put in for it, or it is another key and has what it had. -/
theorem get?_insert_eq_some_iff {t : Table κ β} {k k' : κ} {x y : β} :
    (t.insert k x).get? k' = some y ↔ (k == k') = true ∧ x = y ∨ (k == k') = false ∧ t.get? k' = some y := by
  rw [get?_insert]
  cases k == k' <;> simp

theorem get?_erase (t : Table κ β) (k k' : κ) : (t.erase k).get? k' = if k == k' then none else t.get? k' :=
  Entries.find?_drop k k' t.entries

theorem get?_erase_eq_some_iff {t : Table κ β} {k k' : κ} {x : β} :
    (t.erase k).get? k' = some x ↔ (k == k') = false ∧ t.get? k' = some x := by
  rw [get?_erase]
  cases k == k' <;> simp

/-- The last value of a key in the list counts. -/
theorem get?_ofList (es : List (κ × β)) (k : κ) : (ofList es).get? k = Entries.find? k es.reverse := by
  show Entries.find? k (es.foldl (fun acc e => Entries.put e.1 e.2 acc) []) = _
  rw [Entries.find?_foldl_put]
  simp [Entries.find?]

/-- A value belongs to a key if it is the value of an entry with an equal key. -/
theorem get?_eq_some_iff (t : Table κ β) (k : κ) (x : β) :
    t.get? k = some x ↔ ∃ k', (k' == k) = true ∧ (k', x) ∈ t.entries :=
  ⟨Entries.mem_of_find?, fun ⟨_, hk, h⟩ => Entries.find?_of_mem t.distinct hk h⟩

/-- Every key of `u` has its value in `u`, every other key its value in `t`. -/
theorem get?_update (t u : Table κ β) (k : κ) : (t.update u).get? k = (u.get? k).or (t.get? k) := by
  have hrev : Entries.find? k u.entries.reverse = Entries.find? k u.entries := by
    have hd : Entries.Distinct u.entries.reverse :=
      List.pairwise_reverse.2 (u.distinct.imp fun h => by rwa [BEq.comm])
    cases h : Entries.find? k u.entries with
    | some x =>
      obtain ⟨k', hk, hm⟩ := Entries.mem_of_find? h
      exact Entries.find?_of_mem hd hk (List.mem_reverse.2 hm)
    | none =>
      rw [Entries.find?_eq_none_iff] at h ⊢
      exact fun e he => h e (List.mem_reverse.1 he)
  rw [get?, get?, update, Entries.find?_foldl_put, hrev]
  rfl

end

section

variable [LawfulBEq κ]

theorem mem_entries_iff (t : Table κ β) (k : κ) (x : β) : (k, x) ∈ t.entries ↔ t.get? k = some x := by
  rw [get?_eq_some_iff]
  exact ⟨fun h => ⟨k, by simp, h⟩, fun ⟨_, hk, h⟩ => eq_of_beq hk ▸ h⟩

theorem mem_keys_iff (t : Table κ β) (k : κ) : k ∈ t.keys ↔ (t.get? k).isSome := by
  rw [Option.isSome_iff_exists]
  simp only [keys, Entries.keys, List.mem_map, ← mem_entries_iff]
  exact ⟨fun ⟨e, he, hk⟩ => ⟨e.2, hk ▸ he⟩, fun ⟨x, h⟩ => ⟨_, h, rfl⟩⟩

end

/-- The entries in the order of their keys. -/
def sorted (t : Table String β) : List (String × β) := Entries.sorted t.entries

end Table

end Balancer
