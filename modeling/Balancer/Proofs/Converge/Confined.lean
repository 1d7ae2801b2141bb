import Balancer.Proofs.Converge.Carried
import Balancer.Proofs.Converge.Service

/-!
# What a reconcile leaves alone

* `Marks` : what tells the resources of a Service from those of others;
* `Confined m s u` : what has none of the marks is the same, and what is new has them;
* `visits_convergeService` : a reconcile is confined to its Service, wherever it is cut off, and touches a
  target group only while the load balancer is there.
-/

namespace Balancer

set_option autoImplicit false

namespace Converge

open Cluster Routing Resources

/-! ## The marks of a Service -/

/-- A load balancer of a name is kept under an ARN. -/
def LbNamed (n : String) (k : Key) (u : Resources) : Prop :=
  ∃ fs, u.loadBalancers.get? k = some fs ∧ Fields.get fs "LoadBalancerName" = .text n

/-- There is a load balancer of a name. -/
def HasLb (n : String) (s : Resources) : Prop := ∃ a, LbNamed n (.text a) s

/-- The name of a load balancer, the names of target groups, and the tags that select target groups. -/
structure Marks where
  lb : String
  group : String → Prop
  selector : Fields

/-- A Service whose load balancer has a name. -/
def NamesLb (i : Inputs) (service : Value) (n : String) : Prop :=
  ∀ ns name lbName, names service = .ok (ns, name) → i.identity.nameLb ns name = .ok lbName → n = lbName

/-- The marks are those of a Service, as its names and the store have it. -/
structure Marks.Of (m : Marks) (i : Inputs) (service : Value) : Prop where
  lb : NamesLb i service m.lb
  group : ∀ settings n, settingsOf i service = .ok settings → ServiceGroups i service settings n → m.group n
  selector : ∀ ns name selector, names service = .ok (ns, name) → i.identity.selector ns name = .ok selector →
    m.selector = selector.entries
  tags : ∀ settings, settingsOf i service = .ok settings → AsksTags i service settings m.selector

/-- What has none of the marks is the same, and what is new has them. -/
structure Confined (m : Marks) (s u : Resources) : Prop where
  lb : ∀ k fs, s.loadBalancers.get? k = some fs → Fields.get fs "LoadBalancerName" ≠ .text m.lb → SameLb k s u
  newLb : ∀ k fs, u.loadBalancers.get? k = some fs →
    Fields.get fs "LoadBalancerName" = .text m.lb ∨ s.loadBalancers.get? k = some fs
  group : ∀ k tg, s.targetGroups.get? k = some tg →
    (∀ n, m.group n → Fields.get tg "TargetGroupName" ≠ .text n) →
    hasTags m.selector (s.tagsOf k) = false → SameGroup k s u
  newGroup : ∀ k tg, u.targetGroups.get? k = some tg →
    (∃ n, m.group n ∧ Fields.get tg "TargetGroupName" = .text n) ∨ SameGroup k s u
  /-- The listeners of a load balancer of another name. -/
  listener : ∀ k l a fs, s.listeners.get? k = some l → Fields.get l "LoadBalancerArn" = .text a →
    s.loadBalancers.get? (.text a) = some fs → Fields.get fs "LoadBalancerName" ≠ .text m.lb →
    u.listeners.get? k = some l
  newListener : ∀ k l, u.listeners.get? k = some l →
    (∃ a, Fields.get l "LoadBalancerArn" = .text a ∧ LbNamed m.lb (.text a) u) ∨
      s.listeners.get? k = some l ∧ ∀ a, Fields.get l "LoadBalancerArn" = .text a → ¬ LbNamed m.lb (.text a) s
  /-- The selecting tags, where a target group has them. -/
  keeps : KeepsTags m.selector s u

namespace Confined

variable {m m' : Marks} {s t u : Resources} {a n : String} {fs : Fields} {N : String → Prop} {gone : List Key}

/-- Listeners that are as they were, where the load balancer of the name is where it was. -/
theorem listener_cases {l : Fields} {k : Key} (hl : s.listeners.get? k = some l)
    (hlb : ∀ a, LbNamed n (.text a) s → LbNamed n (.text a) u) :
    (∃ a, Fields.get l "LoadBalancerArn" = .text a ∧ LbNamed n (.text a) u) ∨
      s.listeners.get? k = some l ∧ ∀ a, Fields.get l "LoadBalancerArn" = .text a →
        ¬ LbNamed n (.text a) s := by
  by_cases h : ∃ a, Fields.get l "LoadBalancerArn" = .text a ∧ LbNamed n (.text a) u
  · exact .inl h
  · exact .inr ⟨hl, fun a ha hs => h ⟨a, ha, hlb a hs⟩⟩

theorem refl (m : Marks) (s : Resources) : Confined m s s where
  lb _ _ _ _ := ⟨rfl, rfl, rfl⟩
  newLb _ _ h := .inr h
  group k _ _ _ _ := SameGroup.refl k s
  newGroup k _ _ := .inr (SameGroup.refl k s)
  listener _ _ _ _ h _ _ _ := h
  newListener _ _ h := listener_cases h fun _ h => h
  keeps := KeepsTags.refl m.selector s

theorem trans (h : Confined m s t) (h' : Confined m t u) : Confined m s u where
  lb k fs hk hn := by
    have hsame := h.lb k fs hk hn
    exact hsame.trans (h'.lb k fs (hsame.loadBalancers.trans hk) hn)
  newLb k fs hk := by
    rcases h'.newLb k fs hk with hn | hk
    · exact .inl hn
    · exact h.newLb k fs hk
  group k tg hk hn htags := by
    have hsame := h.group k tg hk hn htags
    refine hsame.trans (h'.group k tg (hsame.targetGroups.trans hk) hn ?_)
    rwa [tagsOf, hsame.tags]
  newGroup k tg hk := by
    rcases h'.newGroup k tg hk with hn | hsame'
    · exact .inl hn
    · rcases h.newGroup k tg (hsame'.targetGroups ▸ hk) with hn | hsame
      · exact .inl hn
      · exact .inr (hsame.trans hsame')
  listener k l a fs hl ha hk hn := by
    have hsame := h.lb _ fs hk hn
    exact h'.listener k l a fs (h.listener k l a fs hl ha hk hn) ha (hsame.loadBalancers.trans hk) hn
  newListener k l hl := by
    rcases h'.newListener k l hl with hon | ⟨hl, hoff⟩
    · exact .inl hon
    · rcases h.newListener k l hl with ⟨a, ha, hon⟩ | hold
      · exact absurd hon (hoff a ha)
      · exact .inr hold
  keeps := h.keeps.trans h'.keeps

/-- With more names of target groups there are more marks. -/
theorem mono (h : Confined m s u) (hN : ∀ n, m.group n → N n) : Confined { m with group := N } s u :=
  { h with
    group := fun k tg hk hn => h.group k tg hk fun n hg => hn n (hN n hg)
    newGroup := fun k tg hk => (h.newGroup k tg hk).imp_left fun ⟨n, hg, hn⟩ => ⟨n, hN n hg, hn⟩ }

end Confined

/-- Only what belongs to the load balancer of an ARN differs. -/
structure OnlyLb (a : String) (s u : Resources) : Prop where
  targetGroups : u.targetGroups = s.targetGroups
  tgAttributes : u.tgAttributes = s.tgAttributes
  targets : u.targets = s.targets
  listeners : u.listeners = s.listeners
  others : ∀ k, (Key.text a == k) = false → SameLb k s u

namespace OnlyLb

variable {m : Marks} {s t u : Resources} {a : String}

theorem refl (a : String) (s : Resources) : OnlyLb a s s := ⟨rfl, rfl, rfl, rfl, fun _ _ => ⟨rfl, rfl, rfl⟩⟩

theorem trans (h : OnlyLb a s t) (h' : OnlyLb a t u) : OnlyLb a s u :=
  ⟨h'.targetGroups.trans h.targetGroups, h'.tgAttributes.trans h.tgAttributes, h'.targets.trans h.targets,
    h'.listeners.trans h.listeners, fun k hk => (h.others k hk).trans (h'.others k hk)⟩

theorem putLb (a : String) (s : Resources) (fs : Fields) : OnlyLb a s (s.putLb (.text a) fs) :=
  ⟨rfl, rfl, rfl, rfl, fun _ hk => ⟨Table.get?_insert_of_ne _ _ hk, rfl, rfl⟩⟩

theorem putLbAttributes (a : String) (s : Resources) (l : Labels) :
    OnlyLb a s (s.putLbAttributes (.text a) l) :=
  ⟨rfl, rfl, rfl, rfl, fun _ hk => ⟨rfl, Table.get?_insert_of_ne _ _ hk, rfl⟩⟩

theorem addLb (a : String) (s : Resources) (fs : Fields) (tags : Labels) :
    OnlyLb a s (s.addLb (.text a) fs tags) :=
  ⟨rfl, rfl, rfl, rfl, fun _ hk => ⟨Table.get?_insert_of_ne _ _ hk, Table.get?_insert_of_ne _ _ hk,
    Table.get?_insert_of_ne _ _ hk⟩⟩

theorem of_tagsAt (h : TagsAt (.text a) s u) : OnlyLb a s u := by
  obtain ⟨⟨l, rfl⟩, htags⟩ := h
  exact ⟨rfl, rfl, rfl, rfl, fun k hk => ⟨rfl, rfl, htags k hk⟩⟩

/-- What belongs to a target group is the same. -/
theorem sameGroup (h : OnlyLb a s u) (hnot : s.targetGroups.get? (.text a) = none) {k : Key} {tg : Fields}
    (hk : s.targetGroups.get? k = some tg) : SameGroup k s u := by
  refine ⟨by rw [h.targetGroups], by rw [h.tgAttributes], by rw [h.targets], (h.others k ?_).tags⟩
  rw [Bool.eq_false_iff]
  intro hkk
  rw [← Table.get?_congr _ hkk, hnot] at hk
  cases hk

/-- A load balancer of the name that is changed or that is new. -/
theorem confined (h : OnlyLb a s u) (hnot : s.targetGroups.get? (.text a) = none)
    (hbefore : ∀ fs, s.loadBalancers.get? (.text a) = some fs → Fields.get fs "LoadBalancerName" = .text m.lb)
    (hafter : LbNamed m.lb (.text a) u) : Confined m s u := by
  have hother : ∀ {k fs}, s.loadBalancers.get? k = some fs → Fields.get fs "LoadBalancerName" ≠ .text m.lb →
      (Key.text a == k) = false := by
    intro k fs hk hn
    rw [Bool.eq_false_iff]
    intro hkk
    rw [← Table.get?_congr _ hkk] at hk
    exact hn (hbefore fs hk)
  constructor
  · exact fun k fs hk hn => h.others k (hother hk hn)
  · intro k fs hk
    by_cases hkk : Key.text a == k
    · obtain ⟨fs', hk', hn⟩ := hafter
      rw [Table.get?_congr _ hkk, hk] at hk'
      cases hk'
      exact .inl hn
    · rw [(h.others k (Bool.eq_false_iff.2 hkk)).loadBalancers] at hk
      exact .inr hk
  · exact fun k tg hk _ _ => h.sameGroup hnot hk
  · exact fun k tg hk => .inr (h.sameGroup hnot (h.targetGroups ▸ hk))
  · exact fun k l a' fs hl _ _ _ => h.listeners ▸ hl
  · intro k l hl
    refine Confined.listener_cases (h.listeners ▸ hl) fun a' hs => ?_
    by_cases haa : Key.text a == Key.text a'
    · rw [← Key.eq_text_of_beq haa]
      exact hafter
    · obtain ⟨fs, hk, hn⟩ := hs
      exact ⟨fs, (h.others _ (Bool.eq_false_iff.2 haa)).loadBalancers.trans hk, hn⟩
  · exact KeepsTags.of_sameGroup fun k tg hk => h.sameGroup hnot (h.targetGroups ▸ hk)

end OnlyLb

section

variable {m : Marks} {s t u : Resources} {a n : String} {fs : Fields} {N : String → Prop}
  {K : Key → Prop} {gone : List Key}

theorem LbNamed.unique {k k' : Key} (hs : s.WellFormed) (h : LbNamed n k s)
    (h' : LbNamed n k' s) : k = k' := by
  obtain ⟨fs, hk, hn⟩ := h
  obtain ⟨fs', hk', hn'⟩ := h'
  exact hs.lbName hk hk' hn hn'

theorem LbNamed.congr {k : Key} (h : LbNamed n k s) (hsame : SameLb k s u) : LbNamed n k u := by
  obtain ⟨fs, hk, hn⟩ := h
  exact ⟨fs, hsame.loadBalancers.trans hk, hn⟩

theorem sameLb_dropLb {k : Key} (hk : (Key.text a == k) = false) : SameLb k s (s.dropLb a) := by
  constructor
  · rw [dropLb_loadBalancers, Table.get?_erase, if_neg (by simp [hk])]
  · rfl
  · rw [dropLb_tags, Table.get?_erase, if_neg (by simp [hk])]

theorem get?_listeners_dropLb {k : Key} {l : Fields} : (s.dropLb a).listeners.get? k = some l ↔
    s.listeners.get? k = some l ∧ Fields.get l "LoadBalancerArn" ≠ .text a := by
  rw [dropLb_listeners, Table.get?_filter_values, Option.filter_eq_some_iff,
    Bool.not_eq_true', ← Bool.not_eq_true, Value.same_text_iff]

/-- The load balancer of the name is deleted with its listeners. -/
theorem Confined.dropLb (hs : s.WellFormed) (hnamed : LbNamed m.lb (.text a) s) :
    Confined m s (s.dropLb a) := by
  obtain ⟨fs, hk, hn⟩ := hnamed
  have hother : ∀ {k fs'}, s.loadBalancers.get? k = some fs' →
      Fields.get fs' "LoadBalancerName" ≠ .text m.lb →
      (Key.text a == k) = false := by
    intro k fs' hk' hn'
    rw [Bool.eq_false_iff]
    intro hkk
    rw [← Table.get?_congr _ hkk, hk] at hk'
    cases hk'
    exact hn' hn
  have hgroup : ∀ {k tg}, s.targetGroups.get? k = some tg → SameGroup k s (s.dropLb a) := by
    intro k tg hk'
    refine ⟨rfl, rfl, rfl, (sameLb_dropLb ?_).tags⟩
    rw [Bool.eq_false_iff]
    intro hkk
    rw [← Table.get?_congr _ hkk] at hk'
    exact hs.disjoint hk hk'
  constructor
  · exact fun k fs' hk' hn' => sameLb_dropLb (hother hk' hn')
  · exact fun k fs' hk' => .inr (Table.get?_erase_eq_some_iff.1 hk').2
  · exact fun k tg hk' _ _ => hgroup hk'
  · exact fun k tg hk' => .inr (hgroup hk')
  · intro k l a' fs' hl ha hk' hn'
    refine get?_listeners_dropLb.2 ⟨hl, fun ha' => ?_⟩
    rw [ha] at ha'
    cases ha'
    rw [hk] at hk'
    cases hk'
    exact hn' hn
  · intro k l hl
    obtain ⟨hl, hoff⟩ := get?_listeners_dropLb.1 hl
    refine .inr ⟨hl, fun a' ha hnamed => hoff ?_⟩
    rw [ha, Key.text.inj (hnamed.unique hs ⟨fs, hk, hn⟩)]
  · exact KeepsTags.of_sameGroup fun k tg hk' => hgroup hk'

theorem OnlyGroups.confined (h : OnlyGroups N s u) (hu : u.WellFormed) (hN : ∀ n, N n → m.group n)
    (hkeeps : KeepsTags m.selector s u) : Confined m s u := by
  constructor
  · exact fun k fs hk _ => ⟨by rw [h.loadBalancers], by rw [h.lbAttributes], h.tags_eq hu hk⟩
  · exact fun k fs hk => .inr (h.loadBalancers ▸ hk)
  · intro k tg hk hn _
    refine (h.groups k).resolve_right ?_
    rintro ⟨n, hNn, -, hbefore⟩
    exact hn n (hN n hNn) (hbefore tg hk)
  · intro k tg hk
    rcases h.groups k with hsame | ⟨n, hNn, ⟨tg', hk', hn⟩, -⟩
    · exact .inr hsame
    · rw [hk] at hk'
      cases hk'
      exact .inl ⟨n, hN n hNn, hn⟩
  · exact fun k l a' fs hl _ _ _ => h.listeners ▸ hl
  · intro k l hl
    refine Confined.listener_cases (h.listeners ▸ hl) fun a' hnamed => ?_
    rwa [LbNamed, h.loadBalancers]
  · exact hkeeps

/-- Listeners of the load balancer of the name. -/
theorem OnPorts.confined (h : OnPorts a K s u) (hnamed : LbNamed m.lb (.text a) s) : Confined m s u := by
  obtain ⟨n, ls, rfl⟩ := h.same
  constructor
  · exact fun k fs hk _ => ⟨rfl, rfl, rfl⟩
  · exact fun k fs hk => .inr hk
  · exact fun k tg hk _ _ => ⟨rfl, rfl, rfl, rfl⟩
  · exact fun k tg hk => .inr ⟨rfl, rfl, rfl, rfl⟩
  · intro k l a' fs hl ha hk hn
    refine h.kept k l hl fun p _ hon => ?_
    have haa := ha.symm.trans hon.1
    cases haa
    obtain ⟨fs', hk', hn'⟩ := hnamed
    rw [hk] at hk'
    cases hk'
    exact hn hn'
  · intro k l hl
    rcases h.new k l hl with hl | ⟨p, -, hon⟩
    · exact Confined.listener_cases hl fun _ h => h
    · exact .inl ⟨a, hon.1, hnamed⟩
  · exact KeepsTags.of_sameGroup fun k _ _ => ⟨rfl, rfl, rfl, rfl⟩

/-- Selected target groups are deleted. -/
theorem Confined.dropTgs (hs : s.WellFormed) (hgone : gone ⊆ s.owned m.selector) :
    Confined m s (s.dropTgs gone) := by
  have hleft : ∀ {k tg}, (s.dropTgs gone).targetGroups.get? k = some tg → SameGroup k s (s.dropTgs gone) := by
    intro k tg hk
    rw [dropTgs_targetGroups, Table.get?_eraseAll] at hk
    split at hk
    · cases hk
    · rename_i hany
      exact sameGroup_dropTgs (Bool.eq_false_iff.2 hany)
  constructor
  · intro k fs hk _
    refine ⟨rfl, rfl, ?_⟩
    rw [dropTgs_tags, Table.get?_eraseAll, not_any_of_lb hs hgone hk]
    rfl
  · exact fun k fs hk => .inr hk
  · intro k tg hk _ htags
    refine sameGroup_dropTgs (List.any_eq_false.2 fun k' hk' hkk => ?_)
    obtain ⟨arn, rfl, -⟩ := hs.tgOwn hk
    have howned := (List.mem_filter.1 (hgone hk')).2
    rw [Key.eq_text_of_beq (BEq.symm hkk), htags] at howned
    cases howned
  · exact fun k tg hk => .inr (hleft hk)
  · exact fun k l a fs hl _ _ _ => hl
  · exact fun k l hl => Confined.listener_cases hl fun _ h => h
  · exact KeepsTags.of_sameGroup fun k tg hk => hleft hk

end

/-! ## The load balancer -/

section

variable {i : Inputs} {service live : Value} {settings : ServiceSettings} {p : LbPlan}
  {m : Marks} {N : String → Prop} {w fs gs : Fields} {arn : String} {s t u : Resources}

theorem LbReady.named (h : LbReady p arn fs u) : LbNamed p.name (.text arn) u := ⟨fs, h.there, h.name⟩

theorem confined_addLb (hs : s.WellFormed) (tags : Labels) :
    Confined ⟨p.name, N, w⟩ s (s.addLb (.text (lbArn p.name s.nextId)) (plannedLb p s.nextId) tags) := by
  have hnumber := numbered_lbArn p.name s.nextId
  refine (OnlyLb.addLb _ s _ tags).confined (hs.tgFresh (Nat.le_refl _) hnumber) (fun fs hk => ?_)
    ⟨_, Table.get?_insert_self _ _ _, rfl⟩
  rw [hs.lbFresh (Nat.le_refl _) hnumber] at hk
  cases hk

theorem targetGroup_eq_none (hs : s.WellFormed) {k : Key} (hk : s.loadBalancers.get? k = some fs) :
    s.targetGroups.get? k = none := by
  cases htg : s.targetGroups.get? k with
  | none => rfl
  | some tg => exact (hs.disjoint hk htg).elim

theorem confined_putLb (hs : s.WellFormed) (hk : s.loadBalancers.get? (.text arn) = some fs)
    (hn : Fields.get fs "LoadBalancerName" = .text p.name)
    (hg : Fields.get gs "LoadBalancerName" = .text p.name) :
    Confined ⟨p.name, N, w⟩ s (s.putLb (.text arn) gs) := by
  refine (OnlyLb.putLb arn s gs).confined (targetGroup_eq_none hs hk) (fun fs' hk' => ?_)
    ⟨gs, Table.get?_insert_self _ _ _, hg⟩
  rw [hk] at hk'
  cases hk'
  exact hn

theorem confined_tagsAt (hs : s.WellFormed) (hnamed : LbNamed m.lb (.text arn) s)
    (h : TagsAt (.text arn) s u) :
    Confined m s u := by
  obtain ⟨fs, hk, hn⟩ := hnamed
  have hlb : u.loadBalancers = s.loadBalancers := by
    obtain ⟨⟨l, rfl⟩, -⟩ := h
    rfl
  refine (OnlyLb.of_tagsAt h).confined (targetGroup_eq_none hs hk) (fun fs' hk' => ?_) ⟨fs, hlb ▸ hk, hn⟩
  rw [hk] at hk'
  cases hk'
  exact hn

theorem confined_ensureLb (hs : s.WellFormed) : (ensureLb p.config).Always (Confined ⟨p.name, N, w⟩ s) s := by
  intro u hu
  rcases lb_cases p hs with hnone | ⟨arn, fs, hk, hn, hsch | hsch⟩
  · rcases (does_ensureLb hnone).2 u hu with rfl | rfl
    · exact Confined.refl _ u
    · exact confined_addLb hs _
  · rcases visits_ensureLb_live hs hk hn hsch hu with rfl | rfl | ⟨gs, hgs, hu⟩
    · exact Confined.refl _ u
    · exact confined_putLb hs hk hn ((get_withIpType (by decide)).trans hn)
    · have hg := (get_of_reshaped hgs (by decide)).trans hn
      have hput := wellFormed_putLb hs hk fun k hk => get_of_reshaped hgs hk
      refine (confined_putLb hs hk hn hg).trans
        (confined_tagsAt hput ⟨gs, Table.get?_insert_self _ _ _, hg⟩ ?_)
      exact always_convergeTags _ arn p.tags.distinct u hu
  · have hdrop : Confined ⟨p.name, N, w⟩ s (s.dropLb arn) := Confined.dropLb hs ⟨fs, hk, hn⟩
    rcases (does_deleteLb_ensureLb hs hk hn hsch).2 u hu with rfl | hu
    · exact Confined.refl _ u
    rcases (does_createLb p _).2 u hu with rfl | rfl
    · exact hdrop
    · exact hdrop.trans (confined_addLb (hs.dropLb arn) _)

theorem confined_lbAttributed (hs : s.WellFormed) (hnamed : LbNamed m.lb (.text arn) s) (desired : Fields) :
    Confined m s (lbAttributed s arn desired) := by
  obtain ⟨fs, hk, hn⟩ := hnamed
  unfold lbAttributed
  split
  · exact Confined.refl m s
  · refine (OnlyLb.putLbAttributes arn s _).confined (targetGroup_eq_none hs hk)
      (fun fs' hk' => ?_) ⟨fs, hk, hn⟩
    rw [hk] at hk'
    cases hk'
    exact hn

theorem confined_realizeLb (hs : s.WellFormed) :
    (realizeLb i service settings p.config).Always (Confined ⟨p.name, N, w⟩ s) s := by
  refine Program.Always.lift_bind (Confined.refl _ s) fun _ _ =>
    Program.Always.bind (confined_ensureLb hs) fun live t ht => ?_
  have hst : Confined ⟨p.name, N, w⟩ s t := (confined_ensureLb hs).yields ht
  have hwf := (always_ensureLb hs).yields ht
  obtain ⟨arn, fs, old, hready, hview, -⟩ := yields_ensureLb hs ht
  rw [item_of_lbView hwf hready hview]
  refine Program.Always.lift_bind hst fun _ harn u hu => ?_
  cases harn
  rw [toTextObject_eq] at hu
  rcases (does_convergeLbAttributes t arn _).visits_bind hu with rfl | hu
  · exact hst
  · rw [Program.visits_pure.1 hu]
    exact hst.trans (confined_lbAttributed hwf hready.named _)

theorem confined_convergeLb (hs : s.WellFormed) (htext : TextSubnets s) (hm : NamesLb i service m.lb) :
    (convergeLb i service settings).Always (Confined m s) s := by
  intro u hu
  rcases Program.visits_bind.1 hu with hu | ⟨config, t, hbuild, hu⟩
  · rw [(surveys_buildLb i service settings).visits hu]
    exact Confined.refl m s
  · obtain ⟨ns, name, tags, p, hnames, hlb, -, -, -, -, rfl, -⟩ := exists_plan htext hbuild
    rw [((surveys_buildLb i service settings).ends hbuild rfl rfl).1] at hu
    obtain ⟨lbName, N, w⟩ := m
    obtain rfl : lbName = p.name := hm ns name p.name hnames hlb
    exact confined_realizeLb hs u hu

/-- The load balancer that `convergeLb` leaves has the name. -/
theorem named_convergeLb (hs : s.WellFormed) (htext : TextSubnets s) (hm : NamesLb i service m.lb)
    (h : (convergeLb i service settings).Yields s live t) :
    ∃ arn, live.item "LoadBalancerArn" = .ok (.text arn) ∧ LbNamed m.lb (.text arn) t := by
  obtain ⟨p, arn, fs, old, hmet, hview, -⟩ := yields_convergeLb hs htext h
  have htext' : TextSubnets t := by
    unfold TextSubnets
    rwa [(Program.always_ground _ s t h.visits).1]
  obtain ⟨ns, name, tags, q, hnames, hlb, -, -, -, -, hq, -⟩ := exists_plan htext' hmet.planned.yields
  obtain rfl := LbPlan.eq_of_config hq
  refine ⟨arn, item_of_lbView ((always_convergeLb hs htext).yields h) hmet.ready hview, ?_⟩
  rw [hm ns name p.name hnames hlb]
  exact hmet.ready.named

end

/-! ## The steps after the load balancer -/

/-- The load balancer of the name is there, and nothing without the marks has changed. -/
structure Anchored (m : Marks) (a : String) (s u : Resources) : Prop where
  wellFormed : u.WellFormed
  confined : Confined m s u
  named : LbNamed m.lb (.text a) u

section

variable {i : Inputs} {service live : Value} {settings : ServiceSettings} {groups : TargetGroups}
  {m : Marks} {a : String} {s t u : Resources}

theorem Anchored.trans (h : Anchored m a s t) (h' : Anchored m a t u) : Anchored m a s u :=
  ⟨h'.wellFormed, h.confined.trans h'.confined, h'.named⟩

theorem anchored_convergeTargetGroups (hm : m.Of i service) (hsettings : settingsOf i service = .ok settings)
    (h : Anchored m a s s) : (convergeTargetGroups i service settings).Always (Anchored m a s) s := by
  intro u hu
  obtain ⟨huwf, hgroups⟩ := always_convergeTargetGroups h.wellFormed u hu
  have hkeeps := keepsTags_convergeTargetGroups h.wellFormed (hm.tags settings hsettings) u hu
  refine ⟨huwf, hgroups.confined huwf (fun n hn => hm.group settings n hsettings hn) hkeeps, ?_⟩
  rw [LbNamed, hgroups.loadBalancers]
  exact h.named

theorem anchored_convergeListeners (h : Anchored m a s s) :
    (convergeListeners (.text a) service settings groups).Always (Anchored m a s) s := by
  intro u hu
  obtain ⟨huwf, hports⟩ := always_convergeListeners h.wellFormed u hu
  refine ⟨huwf, hports.confined h.named, ?_⟩
  obtain ⟨n, ls, rfl⟩ := hports.same
  exact h.named

theorem anchored_collect (hsel : groups.selector = .object m.selector) (h : Anchored m a s s) :
    (collect groups).Always (Anchored m a s) s := by
  intro u hu
  rcases visits_collect h.wellFormed.ownArns hsel hu with rfl | ⟨inUse, gone, -, hgone, rfl⟩
  · exact h
  · have howned : gone ⊆ s.owned m.selector := fun k hk => List.mem_of_mem_filter (hgone hk)
    exact ⟨h.wellFormed.dropTgs gone, Confined.dropTgs h.wellFormed howned, h.named⟩

theorem selector_convergeTargetGroups (hm : m.Of i service)
    (h : (convergeTargetGroups i service settings).Yields s groups t) :
    groups.selector = .object m.selector := by
  obtain ⟨⟨ns, name⟩, hn, h⟩ := Program.yields_lift_bind.1 h
  obtain ⟨specs, -, h⟩ := Program.yields_lift_bind.1 h
  obtain ⟨byBackend, t₁, -, h⟩ := Program.yields_bind.1 h
  obtain ⟨selector, hsel, h⟩ := Program.yields_lift_bind.1 h
  obtain ⟨rfl, -⟩ := Program.yields_pure.1 h
  rw [hm.selector ns name selector hn hsel]
  rfl

/-- The steps after the load balancer never lose it. -/
theorem anchored_equip (hm : m.Of i service) (hsettings : settingsOf i service = .ok settings)
    (hlive : live.item "LoadBalancerArn" = .ok (.text a)) (h : Anchored m a s s) :
    (equip i service settings live).Always (Anchored m a s) s := by
  refine Program.Always.lift_bind h fun arn harn => ?_
  rw [hlive] at harn
  cases harn
  refine Program.Always.bind (anchored_convergeTargetGroups hm hsettings h) fun groups t ht => ?_
  have hst := (anchored_convergeTargetGroups hm hsettings h).yields ht
  have htt : Anchored m a t t := ⟨hst.wellFormed, Confined.refl m t, hst.named⟩
  have hsel := selector_convergeTargetGroups hm ht
  refine Program.Always.mono ?_ fun u (hu : Anchored m a t u) => hst.trans hu
  refine Program.Always.bind (anchored_convergeListeners htt) fun ls t' ht' => ?_
  have hst' := (anchored_convergeListeners htt).yields ht'
  refine Program.Always.mono ?_ fun u (hu : Anchored m a t' u) => hst'.trans hu
  exact fun u hu => anchored_collect hsel ⟨hst'.wellFormed, Confined.refl m t', hst'.named⟩ u
    (visits_finish hu)

/-- A reconcile is confined to its Service, wherever it is cut off. It touches a target group only while the
load balancer is there. -/
theorem visits_convergeService (hs : s.WellFormed) (htext : TextSubnets s) (hm : m.Of i service)
    (h : (convergeService i service).Visits s u) :
    u.WellFormed ∧ Confined m s u ∧
      (HasLb m.lb u ∨ ∀ k tg, u.targetGroups.get? k = some tg → SameGroup k s u) := by
  have hstart : s.WellFormed ∧ Confined m s s ∧ (HasLb m.lb s ∨
      ∀ k tg, s.targetGroups.get? k = some tg → SameGroup k s s) :=
    ⟨hs, Confined.refl m s, .inr fun k _ _ => SameGroup.refl k s⟩
  rw [convergeService_eq] at h
  rcases Program.visits_lift_bind.1 h with rfl | ⟨key, hkey, h⟩
  · exact hstart
  rcases Program.visits_lift_bind.1 h with rfl | ⟨settings, hsettings, h⟩
  · exact hstart
  have hsettingsOf : settingsOf i service = .ok settings := by rw [settingsOf, hkey]; exact hsettings
  -- with no names of target groups among the marks, `Confined` says that the target groups are as they were
  have hlb : ∀ {t}, (convergeLb i service settings).Visits s t →
      Confined ⟨m.lb, fun _ => False, m.selector⟩ s t :=
    fun {t} ht => confined_convergeLb (m := ⟨m.lb, fun _ => False, m.selector⟩) hs htext hm.lb t ht
  rcases Program.visits_bind.1 h with hu | ⟨live, t, ht, hu⟩
  · refine ⟨always_convergeLb hs htext u hu, (hlb hu).mono fun _ => False.elim, .inr fun k tg hk => ?_⟩
    exact ((hlb hu).newGroup k tg hk).resolve_left fun ⟨_, hno, _⟩ => hno
  · obtain ⟨a, hlive, hnamed⟩ := named_convergeLb hs htext hm.lb ht
    have hst : Confined m s t := (hlb ht.visits).mono fun _ => False.elim
    have htt : Anchored m a t t := ⟨(always_convergeLb hs htext).yields ht, Confined.refl m t, hnamed⟩
    have htu := anchored_equip hm hsettingsOf hlive htt u hu
    exact ⟨htu.wellFormed, hst.trans htu.confined, .inl ⟨a, htu.named⟩⟩

/-- A reconcile that succeeds leaves the load balancer there. -/
theorem named_convergeService {lb : LoadBalancer} (hs : s.WellFormed) (htext : TextSubnets s)
    (hm : m.Of i service) (h : (convergeService i service).Yields s lb t) : HasLb m.lb t := by
  rw [convergeService_eq] at h
  obtain ⟨key, hkey, h⟩ := Program.yields_lift_bind.1 h
  obtain ⟨settings, hsettings, h⟩ := Program.yields_lift_bind.1 h
  have hsettingsOf : settingsOf i service = .ok settings := by rw [settingsOf, hkey]; exact hsettings
  obtain ⟨live, t₁, h₁, h⟩ := Program.yields_bind.1 h
  obtain ⟨a, hlive, hnamed⟩ := named_convergeLb hs htext hm.lb h₁
  have htt : Anchored m a t₁ t₁ := ⟨(always_convergeLb hs htext).yields h₁, Confined.refl m t₁, hnamed⟩
  exact ⟨a, ((anchored_equip hm hsettingsOf hlive htt).yields h).named⟩

end

end Converge

end Balancer
