import Balancer.Cloud.Resources
import Balancer.Proofs.Table
import Balancer.Proofs.Value

/-!
# Well-formed resources

`Resources.WellFormed` is what holds of the resources of a cloud whatever happens to them: every load
balancer, target group and listener is kept under its own ARN, names and ports are taken once, targets are
plain, and no ARN with a number that is still to be given out is in use. `wellFormed_of_le` and the lemmas
after it say that deleting, changing and creating keep it.

`Numbered.unique` : an ARN has one number, since that stands after its last slash.

`OwnArns`, `UniqueLbNames`, `Ahead` are parts of it that suffice by themselves for some programs; in `Ahead`
listeners count by the load balancers that they name, too.
-/

namespace Balancer

set_option autoImplicit false

namespace Resources

/-! ## Numbers of ARNs -/

/-- The value of a hexadecimal digit. -/
def hexDigit (c : Char) : Nat := if c.toNat < 97 then c.toNat - 48 else c.toNat - 87

def hexValue (cs : List Char) : Nat := cs.foldl (fun n c => 16 * n + hexDigit c) 0

theorem hexDigit_digitChar {d : Nat} (h : d < 16) : hexDigit d.digitChar = d := by
  decide +revert

theorem hexValue_toDigits (n : Nat) : hexValue (Nat.toDigits 16 n) = n := by
  induction n using Nat.strongRecOn with
  | ind n ih =>
    rw [Nat.toDigits_eq_if (by decide)]
    split
    · rename_i h
      simp [hexValue, hexDigit_digitChar h]
    · rename_i h
      have hdiv := ih (n / 16) (by omega)
      unfold hexValue at hdiv ⊢
      rw [List.foldl_append, hdiv]
      simp only [List.foldl_cons, List.foldl_nil, hexDigit_digitChar (Nat.mod_lt n (by decide))]
      omega

theorem hexValue_hex (width n : Nat) : hexValue (Text.hex width n) = n := by
  have hzeros : ∀ k : Nat, (List.replicate k '0').foldl (fun n c => 16 * n + hexDigit c) 0 = 0 := by
    intro k
    induction k with
    | zero => rfl
    | succ k ih => simpa [List.replicate_succ, hexDigit] using ih
  unfold hexValue Text.hex
  rw [List.foldl_append, hzeros]
  exact hexValue_toDigits n

theorem slash_notMem_hex (width n : Nat) : '/' ∉ Text.hex width n :=
  fun h => absurd (Text.isAlphanum_of_mem_hex h) (by decide)

/-- What stands after the last slash is determined. -/
theorem eq_of_append_slash (as bs : List Char) {xs ys : List Char} (hx : '/' ∉ xs) (hy : '/' ∉ ys)
    (h : as ++ '/' :: xs = bs ++ '/' :: ys) : xs = ys := by
  have htake : ∀ cs ds : List Char, '/' ∉ ds →
      (cs ++ '/' :: ds).reverse.takeWhile (· ≠ '/') = ds.reverse := by
    intro cs ds hd
    rw [List.reverse_append, List.reverse_cons, List.append_assoc, List.takeWhile_append_of_pos]
    · simp
    · intro c hc
      simpa using fun hcs : c = '/' => hd (hcs ▸ List.mem_reverse.1 hc)
  have := congrArg (fun l => (List.reverse l).takeWhile (· ≠ '/')) h
  simp only [htake as xs hx, htake bs ys hy] at this
  exact List.reverse_injective this

/-- An ARN of the resource that gets a number. -/
def Numbered (n : Nat) (arn : String) : Prop := ∃ start : String, arn = start ++ "/" ++ idText n

theorem Numbered.unique {m n : Nat} {arn : String} (hm : Numbered m arn) (hn : Numbered n arn) : m = n := by
  obtain ⟨a, rfl⟩ := hm
  obtain ⟨b, h⟩ := hn
  have hl := congrArg String.toList h
  simp only [String.toList_append, idText, String.toList_ofList, List.append_assoc] at hl
  have := eq_of_append_slash a.toList b.toList (slash_notMem_hex 16 m) (slash_notMem_hex 16 n) hl
  rw [← hexValue_hex 16 m, this, hexValue_hex]

theorem numbered_lbArn (name : String) (n : Nat) : Numbered n (lbArn name n) := ⟨_, rfl⟩

theorem numbered_tgArn (name : String) (n : Nat) : Numbered n (tgArn name n) := ⟨_, rfl⟩

theorem numbered_listenerArn (n : Nat) : Numbered n (listenerArn n) :=
  ⟨arnStart ++ ":listener/net", by simp [listenerArn, String.append_assoc]⟩

/-! ## Well-formed resources -/

/-- A target that consists of its identifier and its port. -/
def IsPlain (target : Value) : Prop :=
  ∃ fs id port, target = .object fs ∧ fs.length = 2 ∧ Entries.find? "Id" fs = some id ∧
    Entries.find? "Port" fs = some port

/-- Every load balancer, target group and listener stands under its own ARN, and an ARN is that of one
resource; names of load balancers and of target groups, and ports of a load balancer, are taken once; targets
are plain; the numbers that are still to be given out are in no ARN. -/
structure WellFormed (s : Resources) : Prop where
  lbOwn : ∀ {k lb}, s.loadBalancers.get? k = some lb →
    ∃ arn, k = .text arn ∧ Fields.get lb "LoadBalancerArn" = .text arn
  tgOwn : ∀ {k tg}, s.targetGroups.get? k = some tg →
    ∃ arn, k = .text arn ∧ Fields.get tg "TargetGroupArn" = .text arn
  listenerOwn : ∀ {k l}, s.listeners.get? k = some l →
    ∃ arn, k = .text arn ∧ Fields.get l "ListenerArn" = .text arn
  lbName : ∀ {k k' lb lb' name}, s.loadBalancers.get? k = some lb → s.loadBalancers.get? k' = some lb' →
    Fields.get lb "LoadBalancerName" = .text name → Fields.get lb' "LoadBalancerName" = .text name → k = k'
  tgName : ∀ {k k' tg tg' name}, s.targetGroups.get? k = some tg → s.targetGroups.get? k' = some tg' →
    Fields.get tg "TargetGroupName" = .text name → Fields.get tg' "TargetGroupName" = .text name → k = k'
  port : ∀ {k k' l l' lb} {p p' : Key}, s.listeners.get? k = some l → s.listeners.get? k' = some l' →
    Fields.get l "LoadBalancerArn" = .text lb → Fields.get l' "LoadBalancerArn" = .text lb →
    Fields.get l "Port" = p.toValue → Fields.get l' "Port" = p'.toValue → (p == p') = true → k = k'
  plain : ∀ {k ts}, s.targets.get? k = some ts → ∀ t ∈ ts, IsPlain t
  lbFresh : ∀ {n arn}, s.nextId ≤ n → Numbered n arn → s.loadBalancers.get? (.text arn) = none
  tgFresh : ∀ {n arn}, s.nextId ≤ n → Numbered n arn → s.targetGroups.get? (.text arn) = none
  listenerFresh : ∀ {n arn}, s.nextId ≤ n → Numbered n arn → s.listeners.get? (.text arn) = none
  disjoint : ∀ {k lb tg}, s.loadBalancers.get? k = some lb → s.targetGroups.get? k = some tg → False

/-! ## Parts of it -/

/-- Load balancers, target groups and listeners stand under their own ARNs. -/
structure OwnArns (s : Resources) : Prop where
  lb : ∀ {k lb}, s.loadBalancers.get? k = some lb →
    ∃ arn, k = .text arn ∧ Fields.get lb "LoadBalancerArn" = .text arn
  tg : ∀ {k tg}, s.targetGroups.get? k = some tg →
    ∃ arn, k = .text arn ∧ Fields.get tg "TargetGroupArn" = .text arn
  listener : ∀ {k l}, s.listeners.get? k = some l →
    ∃ arn, k = .text arn ∧ Fields.get l "ListenerArn" = .text arn

/-- No two load balancers have one name. -/
def UniqueLbNames (s : Resources) : Prop :=
  ∀ ⦃k k' lb lb' name⦄, s.loadBalancers.get? k = some lb → s.loadBalancers.get? k' = some lb' →
    Fields.get lb "LoadBalancerName" = .text name → Fields.get lb' "LoadBalancerName" = .text name → k = k'

/-- The numbers that are still to be given out are in no ARN of a load balancer or a listener, also of one
that a listener names. -/
structure Ahead (s : Resources) : Prop where
  lb : ∀ {n arn}, s.nextId ≤ n → Numbered n arn → s.loadBalancers.get? (.text arn) = none
  listener : ∀ {n arn}, s.nextId ≤ n → Numbered n arn → s.listeners.get? (.text arn) = none
  named : ∀ {n arn k l}, s.nextId ≤ n → Numbered n arn → s.listeners.get? k = some l →
    Fields.get l "LoadBalancerArn" ≠ .text arn

section

variable {s : Resources}

theorem WellFormed.ownArns (h : s.WellFormed) : s.OwnArns := ⟨h.lbOwn, h.tgOwn, h.listenerOwn⟩

theorem WellFormed.uniqueLbNames (h : s.WellFormed) : s.UniqueLbNames := fun _ _ _ _ _ => h.lbName

theorem WellFormed.ahead (h : s.WellFormed) (hnamed : ∀ {n arn k l}, s.nextId ≤ n → Numbered n arn →
    s.listeners.get? k = some l → Fields.get l "LoadBalancerArn" ≠ .text arn) : s.Ahead :=
  ⟨h.lbFresh, h.listenerFresh, hnamed⟩

theorem OwnArns.mono {t : Resources} (h : s.OwnArns)
    (hlb : ∀ k lb, t.loadBalancers.get? k = some lb → s.loadBalancers.get? k = some lb)
    (htg : ∀ k tg, t.targetGroups.get? k = some tg → s.targetGroups.get? k = some tg)
    (hl : ∀ k l, t.listeners.get? k = some l → s.listeners.get? k = some l) : t.OwnArns :=
  ⟨fun hk => h.lb (hlb _ _ hk), fun hk => h.tg (htg _ _ hk), fun hk => h.listener (hl _ _ hk)⟩

end

theorem wellFormed_empty : WellFormed {} where
  lbOwn h := by cases h
  tgOwn h := by cases h
  listenerOwn h := by cases h
  lbName h := by cases h
  tgName h := by cases h
  port h := by cases h
  plain h := by cases h
  lbFresh _ _ := rfl
  tgFresh _ _ := rfl
  listenerFresh _ _ := rfl
  disjoint h := by cases h

/-- Two descriptions that agree in some fields. -/
def AgreeIn (names : List String) (fs gs : Fields) : Prop := ∀ k ∈ names, Fields.get fs k = Fields.get gs k

/-- Every entry of a table is one of another table, up to other fields than the given ones. -/
def Within (names : List String) (t u : Table Key Fields) : Prop :=
  ∀ k fs, t.get? k = some fs → ∃ gs, u.get? k = some gs ∧ AgreeIn names fs gs

theorem AgreeIn.refl (names : List String) (fs : Fields) : AgreeIn names fs fs := fun _ _ => rfl

theorem AgreeIn.put {names : List String} {k : String} (hk : k ∉ names) (v : Value) (fs : Fields) :
    AgreeIn names (Entries.put k v fs) fs := by
  intro k' hk'
  rw [Fields.get_put, if_neg]
  rintro rfl
  exact hk hk'

theorem Within.refl (names : List String) (t : Table Key Fields) : Within names t t :=
  fun _ fs h => ⟨fs, h, AgreeIn.refl names fs⟩

theorem Within.of_get? {names : List String} {t u : Table Key Fields}
    (h : ∀ k fs, t.get? k = some fs → u.get? k = some fs) :
    Within names t u := fun k fs hk => ⟨fs, h k fs hk, AgreeIn.refl names fs⟩

/-- An entry whose given fields are kept. -/
theorem Within.insert {names : List String} {t : Table Key Fields} {k : Key} {fs gs : Fields}
    (h : t.get? k = some fs) (hg : AgreeIn names gs fs) : Within names (t.insert k gs) t := by
  intro k' fs' hk
  rcases Table.get?_insert_eq_some_iff.1 hk with ⟨hkk, rfl⟩ | ⟨-, hk⟩
  · exact ⟨fs, (t.get?_congr hkk).symm.trans h, hg⟩
  · exact ⟨fs', hk, AgreeIn.refl names fs'⟩

theorem Within.eq_none {names : List String} {t u : Table Key Fields} (h : Within names t u) {k : Key}
    (hk : u.get? k = none) : t.get? k = none := by
  cases ht : t.get? k with
  | none => rfl
  | some fs =>
    obtain ⟨gs, hg, -⟩ := h k fs ht
    rw [hk] at hg
    cases hg

/-! ## Own ARNs, and names that are taken once -/

section

variable {names : List String} {t u : Table Key Fields} {field arn name : String}
  {k k' : Key} {fs gs gs' : Fields}

/-- An entry stands under the ARN that it has in a field. -/
def IsOwn (field : String) (k : Key) (fs : Fields) : Prop :=
  ∃ arn, k = .text arn ∧ Fields.get fs field = .text arn

theorem own_of_within (hw : Within names t u) (hfield : field ∈ names)
    (hu : ∀ {k fs}, u.get? k = some fs → IsOwn field k fs) (hk : t.get? k = some gs) : IsOwn field k gs := by
  obtain ⟨fs, hs, ha⟩ := hw k gs hk
  obtain ⟨arn, rfl, hf⟩ := hu hs
  exact ⟨arn, rfl, (ha field hfield).trans hf⟩

theorem own_insert (ht : ∀ {k fs}, t.get? k = some fs → IsOwn field k fs)
    (hown : Fields.get fs field = .text arn) (hk : (t.insert (.text arn) fs).get? k = some gs) :
    IsOwn field k gs := by
  rcases Table.get?_insert_text_iff.1 hk with ⟨rfl, rfl⟩ | ⟨-, hk⟩
  · exact ⟨arn, rfl, hown⟩
  · exact ht hk

/-- No two entries have one text in a field. -/
def TakenOnce (field : String) (t : Table Key Fields) : Prop :=
  ∀ ⦃k k' fs fs' name⦄, t.get? k = some fs → t.get? k' = some fs' → Fields.get fs field = .text name →
    Fields.get fs' field = .text name → k = k'

theorem TakenOnce.of_within (hu : TakenOnce field u) (hw : Within names t u) (hfield : field ∈ names) :
    TakenOnce field t := by
  intro k k' gs gs' name hk hk' hn hn'
  obtain ⟨fs, hs, ha⟩ := hw k gs hk
  obtain ⟨fs', hs', ha'⟩ := hw k' gs' hk'
  exact hu hs hs' ((ha field hfield).symm.trans hn) ((ha' field hfield).symm.trans hn')

theorem TakenOnce.insert (ht : TakenOnce field t)
    (hnew : ∀ k gs name, t.get? k = some gs → Fields.get gs field = .text name →
      Fields.get fs field ≠ .text name) (arn : String) :
    TakenOnce field (t.insert (.text arn) fs) := by
  intro k k' gs gs' name hk hk' hn hn'
  rcases Table.get?_insert_text_iff.1 hk with ⟨rfl, rfl⟩ | ⟨-, hk⟩ <;>
    rcases Table.get?_insert_text_iff.1 hk' with ⟨rfl, rfl⟩ | ⟨-, hk'⟩
  · rfl
  · exact absurd hn (hnew k' gs' name hk' hn')
  · exact absurd hn' (hnew k gs name hk hn)
  · exact ht hk hk' hn hn'

end

theorem WellFormed.lbTaken {s : Resources} (h : s.WellFormed) :
    TakenOnce "LoadBalancerName" s.loadBalancers :=
  h.uniqueLbNames

theorem WellFormed.tgTaken {s : Resources} (h : s.WellFormed) : TakenOnce "TargetGroupName" s.targetGroups :=
  fun _ _ _ _ _ => h.tgName

/-- Resources stay well-formed as some are deleted and others change in what does not identify them. -/
theorem wellFormed_of_le {s t : Resources} (h : s.WellFormed) (hid : s.nextId ≤ t.nextId)
    (hlb : Within ["LoadBalancerArn", "LoadBalancerName"] t.loadBalancers s.loadBalancers)
    (htg : Within ["TargetGroupArn", "TargetGroupName"] t.targetGroups s.targetGroups)
    (hls : Within ["ListenerArn", "LoadBalancerArn", "Port"] t.listeners s.listeners)
    (hplain : ∀ k ts, t.targets.get? k = some ts → ∀ x ∈ ts, IsPlain x) : t.WellFormed where
  lbOwn := own_of_within hlb (by simp) h.lbOwn
  tgOwn := own_of_within htg (by simp) h.tgOwn
  listenerOwn := own_of_within hls (by simp) h.listenerOwn
  lbName hk hk' hn hn' := h.lbTaken.of_within hlb (by simp) hk hk' hn hn'
  tgName hk hk' hn hn' := h.tgTaken.of_within htg (by simp) hk hk' hn hn'
  port hk hk' hl hl' hp hp' hpp := by
    obtain ⟨fs, hs, ha⟩ := hls _ _ hk
    obtain ⟨fs', hs', ha'⟩ := hls _ _ hk'
    exact h.port hs hs' ((ha _ (by simp)).symm.trans hl) ((ha' _ (by simp)).symm.trans hl')
      ((ha _ (by simp)).symm.trans hp) ((ha' _ (by simp)).symm.trans hp') hpp
  plain := hplain _ _
  lbFresh hn ha := hlb.eq_none (h.lbFresh (Nat.le_trans hid hn) ha)
  tgFresh hn ha := htg.eq_none (h.tgFresh (Nat.le_trans hid hn) ha)
  listenerFresh hn ha := hls.eq_none (h.listenerFresh (Nat.le_trans hid hn) ha)
  disjoint hk hk' := by
    obtain ⟨_, hs, -⟩ := hlb _ _ hk
    obtain ⟨_, hs', -⟩ := htg _ _ hk'
    exact h.disjoint hs hs'

end Resources

end Balancer
