import Balancer.Proofs.Cloud.Growth
import Balancer.Proofs.Converge.Sync
import Balancer.Proofs.Identity.Ownership

/-!
# What belongs to a Service

* `Owners` : which Service the names of load balancers and of target groups are for;
* `Belongs o stem cluster ns name k s` : what is kept under `k` has the name or the tags of a Service, and the
  load balancer of the Service is there, so that a delete finds it;
* `Careful` : a sync that gives its Service no name that is for another one, leaves the tags of the owner
  alone, and does not leave the Service without the load balancer that it had;
* `Belongs.sync` : what belongs to a Service does so after any careful sync, and not after a delete of it
  (`Belongs.not_holds_tornDown`).
-/

namespace Balancer

set_option autoImplicit false

/-- Something is kept under an ARN: a load balancer, a target group or a listener. -/
def Resources.Holds (s : Resources) (k : Key) : Prop :=
  (s.loadBalancers.get? k).isSome = true ∨ (s.targetGroups.get? k).isSome = true ∨
    (s.listeners.get? k).isSome = true

instance (s : Resources) (k : Key) : Decidable (s.Holds k) := inferInstanceAs (Decidable (_ ∨ _ ∨ _))

namespace Converge

open Cluster Identity Routing Resources

/-- The Services that names are for. -/
structure Owners where
  lb : String → String × String
  group : String → String × String

/-- The tags of the owner of a target group. -/
def ownerTags (cluster ns name : String) : Fields := (ownership cluster (.text ns) (.text name)).entries

/-- What is kept under an ARN has the name or the tags of a Service, and the load balancer of
the Service is there. -/
structure Belongs (o : Owners) (stem cluster ns name : String) (k : Key) (s : Resources) : Prop where
  lb : ∀ fs, s.loadBalancers.get? k = some fs → Fields.get fs "LoadBalancerName" = .text (lbName stem ns name)
  group : ∀ tg, s.targetGroups.get? k = some tg →
    (∃ n, Fields.get tg "TargetGroupName" = .text n ∧ o.group n = (ns, name)) ∧
    Meets (s.tagsOf k) (ownerTags cluster ns name) ∧ HasLb (lbName stem ns name) s
  listener : ∀ l, s.listeners.get? k = some l →
    ∃ a, Fields.get l "LoadBalancerArn" = .text a ∧ LbNamed (lbName stem ns name) (.text a) s

section

variable {o : Owners} {stem cluster ns name ns' name' a : String} {k : Key} {gone : List Key}
  {m : Marks} {s t u : Resources}

theorem mem_ownerTags {k : String} {v : Value} :
    (k, v) ∈ ownerTags cluster ns name ↔ (ownership cluster (.text ns) (.text name)).get? k = some v := by
  unfold ownerTags
  rw [Table.mem_entries_iff]

theorem definite_ownerTags : Definite (ownerTags cluster ns name) := by
  rintro ⟨k, v⟩ he
  rcases get?_ownership_iff.1 (mem_ownerTags.1 he) with ⟨-, rfl⟩ | ⟨-, rfl⟩ | ⟨-, rfl⟩ <;> simp

/-- The tags of one owner are not those of another. -/
theorem hasTags_ownerTags_of_ne {tags : Labels} (h : Meets tags (ownerTags cluster ns name))
    (hne : (ns', name') ≠ (ns, name)) :
    hasTags (ownerTags cluster ns' name') tags = false := by
  rw [Bool.eq_false_iff]
  intro hhas
  have hall := List.all_eq_true.1 hhas
  have hns := hall _ (mem_ownerTags.2 (get?_ownership_iff.2 (.inr (.inl ⟨rfl, rfl⟩))))
  have hname := hall _ (mem_ownerTags.2 (get?_ownership_iff.2 (.inr (.inr ⟨rfl, rfl⟩))))
  have hns' := Value.agrees_text.1 (h _ (mem_ownerTags.2 (get?_ownership_iff.2 (.inr (.inl ⟨rfl, rfl⟩)))))
  have hname' := Value.agrees_text.1 (h _ (mem_ownerTags.2 (get?_ownership_iff.2 (.inr (.inr ⟨rfl, rfl⟩)))))
  simp only [hns', hname', Value.same_text_iff, Value.text.injEq] at hns hname
  exact hne (by rw [hns, hname])

namespace Belongs

theorem of_not_holds (h : ¬ s.Holds k) : Belongs o stem cluster ns name k s where
  lb _ hk := (h (.inl (by simp [hk]))).elim
  group _ hk := (h (.inr (.inl (by simp [hk])))).elim
  listener _ hk := (h (.inr (.inr (by simp [hk])))).elim

/-- While something belongs to a Service, its load balancer is there. -/
theorem hasLb (h : Belongs o stem cluster ns name k s) (hs : s.WellFormed) (hk : s.Holds k) :
    HasLb (lbName stem ns name) s := by
  rcases hk with hk | hk | hk
  · obtain ⟨fs, hk⟩ := Option.isSome_iff_exists.1 hk
    obtain ⟨a, rfl, -⟩ := hs.lbOwn hk
    exact ⟨a, fs, hk, h.lb fs hk⟩
  · obtain ⟨tg, hk⟩ := Option.isSome_iff_exists.1 hk
    exact (h.group tg hk).2.2
  · obtain ⟨l, hk⟩ := Option.isSome_iff_exists.1 hk
    obtain ⟨a, -, hnamed⟩ := h.listener l hk
    exact ⟨a, hnamed⟩

theorem dropListeners (h : Belongs o stem cluster ns name k s) :
    Belongs o stem cluster ns name k (s.dropListeners gone) where
  lb := h.lb
  group := h.group
  listener l hl := h.listener l (Table.get?_of_get?_eraseAll hl)

theorem dropTgs (h : Belongs o stem cluster ns name k s) :
    Belongs o stem cluster ns name k (s.dropTgs gone) where
  lb := h.lb
  group tg hk := by
    rw [dropTgs_targetGroups, Table.get?_eraseAll] at hk
    split at hk
    · cases hk
    · rename_i hany
      rw [tagsOf, dropTgs_tags, Table.get?_eraseAll, if_neg hany]
      exact h.group tg hk
  listener := h.listener

/-- The load balancer of another Service is deleted. -/
theorem dropLb (h : Belongs o stem cluster ns name k s) (hs : s.WellFormed) {n : String}
    (hother : LbNamed n (.text a) s) (hne : n ≠ lbName stem ns name) :
    Belongs o stem cluster ns name k (s.dropLb a) := by
  obtain ⟨fs, hfs, hn⟩ := hother
  have hlb : ∀ {a'}, LbNamed (lbName stem ns name) (.text a') s →
      LbNamed (lbName stem ns name) (.text a') (s.dropLb a) := by
    intro a' hnamed
    refine hnamed.congr (sameLb_dropLb ?_)
    rw [Key.text_beq_text, beq_eq_false_iff_ne]
    rintro rfl
    obtain ⟨fs', hfs', hn'⟩ := hnamed
    rw [hfs] at hfs'
    cases hfs'
    rw [hn] at hn'
    exact hne (Value.text.inj hn')
  constructor
  · exact fun fs' hk => h.lb fs' (Table.get?_erase_eq_some_iff.1 hk).2
  · intro tg hk
    obtain ⟨hname, htags, a', hnamed⟩ := h.group tg hk
    refine ⟨hname, ?_, a', hlb hnamed⟩
    rw [tagsOf, (sameLb_dropLb ?_).tags]
    · exact htags
    rw [Bool.eq_false_iff]
    intro hkk
    rw [← Table.get?_congr _ hkk] at hk
    exact hs.disjoint hfs hk
  · intro l hl
    obtain ⟨hl, -⟩ := get?_listeners_dropLb.1 hl
    obtain ⟨a', ha, hnamed⟩ := h.listener l hl
    exact ⟨a', ha, hlb hnamed⟩

/-- Nothing belongs to a Service any more that is torn down. -/
theorem not_holds_tornDown (h : Belongs o stem cluster ns name k s) (hs : s.WellFormed)
    (hnamed : LbNamed (lbName stem ns name) (.text a) s) :
    ¬ (tornDown a (ownerTags cluster ns name) s).Holds k := by
  rintro (hk | hk | hk)
  · obtain ⟨fs, hk⟩ := Option.isSome_iff_exists.1 hk
    obtain ⟨hne, hk⟩ := Table.get?_erase_eq_some_iff.1 hk
    obtain ⟨a', rfl, -⟩ := hs.lbOwn hk
    rw [hnamed.unique hs ⟨fs, hk, h.lb fs hk⟩] at hne
    exact Bool.eq_false_iff.1 hne BEq.rfl
  · obtain ⟨tg, hk⟩ := Option.isSome_iff_exists.1 hk
    have hk : ((s.targetGroups.eraseAll (s.owned (ownerTags cluster ns name))).get? k) = some tg := hk
    rw [Table.get?_eraseAll] at hk
    split at hk
    · cases hk
    · rename_i hany
      have hmem := hs.mem_owned hk (hasTags_of_meets (h.group tg hk).2.1 definite_ownerTags)
      exact hany (List.any_eq_true.2 ⟨k, hmem, BEq.rfl⟩)
  · obtain ⟨l, hl⟩ := Option.isSome_iff_exists.1 hk
    obtain ⟨hl, hoff⟩ := get?_listeners_dropLb.1 hl
    obtain ⟨a', ha, hnamed'⟩ := h.listener l (Table.get?_of_get?_eraseAll hl)
    rw [ha, Key.text.inj (hnamed'.unique hs hnamed)] at hoff
    exact hoff rfl

/-- What belonged to a Service still does after a reconcile of another one. -/
theorem of_confined_other (h : Belongs o stem cluster ns name k s) (hm : Confined m s u) (hgrown : Grown s u)
    (hk : IsNew 0 s.nextId k) (hlb : lbName stem ns name ≠ m.lb)
    (hgroup : ∀ n, m.group n → o.group n ≠ (ns, name))
    (htags : ∀ tags, Meets tags (ownerTags cluster ns name) → hasTags m.selector tags = false) :
    Belongs o stem cluster ns name k u := by
  have hbefore : ∀ {x y fs}, KeysFrom s.nextId u.nextId x y → y.get? k = some fs → ∃ gs, x.get? k = some gs :=
    fun {_ _ fs} hxy hfs => (hxy k fs hfs).resolve_right fun hnew => hk.disjoint hnew (Nat.le_refl _)
  have hnamed : ∀ {a}, LbNamed (lbName stem ns name) (.text a) s →
      LbNamed (lbName stem ns name) (.text a) u := by
    rintro a ⟨fs, hfs, hn⟩
    refine LbNamed.congr ⟨fs, hfs, hn⟩ (hm.lb _ fs hfs ?_)
    rw [hn]
    exact fun heq => hlb (Value.text.inj heq)
  constructor
  · intro fs hfs
    obtain ⟨gs, hgs⟩ := hbefore hgrown.loadBalancers hfs
    have hn := h.lb gs hgs
    have hsame := (hm.lb k gs hgs (by rw [hn]; exact fun heq => hlb (Value.text.inj heq))).loadBalancers
    rw [hfs, hgs] at hsame
    cases hsame
    exact hn
  · intro tg htg
    obtain ⟨tg', htg'⟩ := hbefore hgrown.targetGroups htg
    obtain ⟨⟨n, hn, hown⟩, hmeets, a, hlbNamed⟩ := h.group tg' htg'
    have hsame := hm.group k tg' htg' (fun n' hn' heq => ?_) (htags _ hmeets)
    · have heq := hsame.targetGroups
      rw [htg, htg'] at heq
      cases heq
      refine ⟨⟨n, hn, hown⟩, ?_, a, hnamed hlbNamed⟩
      rw [tagsOf, hsame.tags]
      exact hmeets
    · rw [hn] at heq
      cases heq
      exact hgroup n hn' hown
  · intro l hl
    obtain ⟨l', hl'⟩ := hbefore hgrown.listeners hl
    obtain ⟨a, ha, fs, hfs, hn⟩ := h.listener l' hl'
    have hsame := hm.listener k l' a fs hl' ha hfs (by rw [hn]; exact fun heq => hlb (Value.text.inj heq))
    rw [hl] at hsame
    cases hsame
    exact ⟨a, ha, hnamed ⟨fs, hfs, hn⟩⟩

/-- What belonged to a Service, or was not there, belongs to it after a reconcile of it. -/
theorem of_confined_own (h : Belongs o stem cluster ns name k s) (hm : Confined m s u)
    (hlb : m.lb = lbName stem ns name) (hgroup : ∀ n, m.group n → o.group n = (ns, name))
    (hsel : m.selector = ownerTags cluster ns name)
    (hthere : HasLb m.lb u ∨ ∀ k tg, u.targetGroups.get? k = some tg → SameGroup k s u)
    (hkept : HasLb m.lb s → HasLb m.lb u) : Belongs o stem cluster ns name k u := by
  rw [hlb] at hthere hkept
  constructor
  · intro fs hfs
    rcases hm.newLb k fs hfs with hn | hfs
    · rw [hn, hlb]
    · exact h.lb fs hfs
  · intro tg htg
    refine ⟨?_, hsel ▸ hm.keeps k tg htg fun tg' htg' => hsel ▸ (h.group tg' htg').2.1, ?_⟩
    · rcases hm.newGroup k tg htg with ⟨n, hn, hname⟩ | hsame
      · exact ⟨n, hname, hgroup n hn⟩
      · exact (h.group tg (hsame.targetGroups ▸ htg)).1
    · rcases hthere with hthere | hsame
      · exact hthere
      · exact hkept (h.group tg ((hsame k tg htg).targetGroups ▸ htg)).2.2
  · intro l hl
    rcases hm.newListener k l hl with hon | ⟨hl, hoff⟩
    · rwa [hlb] at hon
    · obtain ⟨a, ha, hnamed⟩ := h.listener l hl
      exact absurd (hlb ▸ hnamed) (hoff a ha)

end Belongs

end

/-! ## A sync that keeps to its Service -/

/-- The marks of a Service by its names and by whom names are for. -/
@[simps]
def Owners.marks (o : Owners) (stem cluster ns name : String) : Marks where
  lb := lbName stem ns name
  group n := o.group n = (ns, name)
  selector := ownerTags cluster ns name

/-- A Service with the names of its key whose target groups have names for it and keep
the tags of their owner. -/
structure Apart (o : Owners) (cluster ns name : String) (i : Inputs) (service : Value) : Prop where
  names : names service = .ok (.text ns, .text name)
  groups : ∀ settings n, settingsOf i service = .ok settings → ServiceGroups i service settings n →
    o.group n = (ns, name)
  tags : ∀ settings, settingsOf i service = .ok settings → LeavesOwner settings.tags cluster ns name

/-- A sync of a key whose names are for its Service, which has its load balancer after a reconcile
if it had one before. -/
structure Careful (o : Owners) (stem cluster ns name : String) (i : Inputs) (key : Value)
    (s t : Resources) : Prop where
  split : splitKey key = .ok (ns, name)
  owner : o.lb (lbName stem ns name) = (ns, name)
  apart : ∀ service, wantedAt i key = .ok (some service) → Apart o cluster ns name i service
  kept : ∀ service, wantedAt i key = .ok (some service) → HasLb (lbName stem ns name) s →
    HasLb (lbName stem ns name) t

section

variable {o : Owners} {i : Inputs} {stem cluster ns name ns' name' : String} {key service : Value}
  {k : Key} {s t : Resources}

/-- The tags that a Service asks for are those of the owner, if the annotations leave them alone. -/
theorem asksTags_of_leavesOwner {settings : ServiceSettings}
    (hnames : names service = .ok (.text ns, .text name)) (hcluster : i.identity.clusterName = .text cluster)
    (hleaves : LeavesOwner settings.tags cluster ns name) :
    AsksTags i service settings (ownerTags cluster ns name) := by
  intro specs hspecs spec hspec hused plan hplan
  obtain ⟨-, -, ns', name', hnames', htags⟩ := planGroup_eq_ok hplan
  rw [hnames] at hnames'
  cases hnames'
  have hmatches :=
    (matches_targetGroupTags_iff hcluster (service_of_names hnames hspecs hspec hused) htags ns name).2
    ⟨hleaves.ofCluster, hleaves.ofNamespace, hleaves.ofName⟩
  rintro ⟨k, v⟩ he
  exact (Table.mem_entries_iff _ k v).2 (hmatches k v (mem_ownerTags.1 he))

theorem Apart.asksTags {settings : ServiceSettings} (h : Apart o cluster ns name i service)
    (hcluster : i.identity.clusterName = .text cluster) (hsettings : settingsOf i service = .ok settings) :
    AsksTags i service settings (ownerTags cluster ns name) :=
  asksTags_of_leavesOwner h.names hcluster (h.tags settings hsettings)

theorem Apart.marks (h : Apart o cluster ns name i service) (hstem : i.identity.stem = .text stem)
    (hcluster : i.identity.clusterName = .text cluster) : (o.marks stem cluster ns name).Of i service where
  lb ns' name' n hnames hn := by
    rw [h.names] at hnames
    cases hnames
    rw [nameLb_text hstem] at hn
    exact Except.ok.inj hn
  group settings n hsettings hn := h.groups settings n hsettings hn
  selector ns' name' selector hnames hsel := by
    rw [h.names] at hnames
    cases hnames
    rw [selector_text hcluster] at hsel
    cases hsel
    rfl
  tags _ hsettings := h.asksTags hcluster hsettings

/-- A sync that succeeds is careful of a Service with names and tags of its own. -/
theorem Careful.of_yields {lb : Option LoadBalancer} (hsplit : splitKey key = .ok (ns, name))
    (howner : o.lb (lbName stem ns name) = (ns, name)) (hstem : i.identity.stem = .text stem)
    (hcluster : i.identity.clusterName = .text cluster)
    (hapart : ∀ service, wantedAt i key = .ok (some service) → Apart o cluster ns name i service)
    (hs : s.WellFormed) (htext : TextSubnets s) (h : (sync i key).Yields s lb t) :
    Careful o stem cluster ns name i key s t := by
  refine ⟨hsplit, howner, hapart, fun service hwanted _ => ?_⟩
  cases lb with
  | none =>
    rw [(yields_sync_none h).1] at hwanted
    cases hwanted
  | some lb =>
    obtain ⟨service', hwanted', h⟩ := yields_sync_some h
    rw [hwanted] at hwanted'
    cases hwanted'
    have hnamed := named_convergeService hs htext ((hapart service hwanted).marks hstem hcluster) h
    rwa [Owners.marks_lb] at hnamed

/-- What a careful sync leaves: what a reconcile of its Service may leave, or a part of what there was, or
what a delete leaves. -/
theorem Careful.visits (h : Careful o stem cluster ns name i key s t) (hstem : i.identity.stem = .text stem)
    (hcluster : i.identity.clusterName = .text cluster) (hs : s.WellFormed) (htext : TextSubnets s)
    (ht : (sync i key).Visits s t) :
    t.WellFormed ∧
      ((Confined (o.marks stem cluster ns name) s t ∧
          (HasLb (lbName stem ns name) t ∨ ∀ k tg, t.targetGroups.get? k = some tg → SameGroup k s t) ∧
          (HasLb (lbName stem ns name) s → HasLb (lbName stem ns name) t)) ∨
        (∃ gone gone', t = (s.dropListeners gone).dropTgs gone') ∨
        ∃ a, LbNamed (lbName stem ns name) (.text a) s ∧ t = tornDown a (ownerTags cluster ns name) s) := by
  have hself : ∃ gone gone', s = (s.dropListeners gone).dropTgs gone' :=
    ⟨[], [], by rw [dropListeners_nil, dropTgs_nil]⟩
  rcases visits_sync ht with rfl | ⟨-, ht⟩ | ⟨service, hwanted, ht⟩
  · exact ⟨hs, .inr (.inl hself)⟩
  · rcases visits_deleteService hs ht with ⟨gone, gone', rfl⟩ | ⟨ns', name', n, hkey, hn, hdeleted⟩
    · exact ⟨(hs.dropListeners gone).dropTgs gone', .inr (.inl ⟨gone, gone', rfl⟩)⟩
    rw [h.split] at hkey
    cases hkey
    rw [nameLb_text hstem] at hn
    cases hn
    rcases hdeleted with ⟨-, rfl⟩ | ⟨a, selector, hnamed, hsel, rfl⟩
    · exact ⟨hs, .inr (.inl hself)⟩
    rw [selector_text hcluster] at hsel
    cases hsel
    exact ⟨((hs.dropListeners _).dropTgs _).dropLb a, .inr (.inr ⟨a, hnamed, rfl⟩)⟩
  · obtain ⟨hwf, hconfined, hthere⟩ :=
      visits_convergeService hs htext ((h.apart service hwanted).marks hstem hcluster) ht
    exact ⟨hwf, .inl ⟨hconfined, hthere, h.kept service hwanted⟩⟩

/-- What belongs to a Service, or is not there, belongs to it after a careful sync: one of the Service itself,
or of another one if the ARN is given out already. -/
theorem Belongs.sync (h : Belongs o stem cluster ns name k s)
    (hcare : Careful o stem cluster ns' name' i key s t) (hstem : i.identity.stem = .text stem)
    (hcluster : i.identity.clusterName = .text cluster) (hs : s.WellFormed) (htext : TextSubnets s)
    (ht : (sync i key).Visits s t)
    (hk : (ns', name') = (ns, name) ∨ o.lb (lbName stem ns name) = (ns, name) ∧ IsNew 0 s.nextId k) :
    Belongs o stem cluster ns name k t := by
  obtain ⟨-, ⟨hconfined, hthere, hkept⟩ | ⟨gone, gone', rfl⟩ | ⟨a, hnamed, rfl⟩⟩ :=
    hcare.visits hstem hcluster hs htext ht
  · -- A reconcile: what is new has the marks of its own Service, and of another Service nothing is new
    -- under an old ARN.
    by_cases hown : (ns', name') = (ns, name)
    · cases hown
      exact h.of_confined_own hconfined rfl (fun _ hn => hn) rfl hthere hkept
    · obtain ⟨hlb, hold⟩ := hk.resolve_left hown
      refine h.of_confined_other hconfined (Program.always_grown _ s t ht) hold (fun heq => hown ?_)
        (fun n hn heq => hown ?_)
        fun tags htags => hasTags_ownerTags_of_ne htags hown
      · exact hcare.owner.symm.trans ((congrArg o.lb heq.symm).trans hlb)
      · exact hn.symm.trans heq
  · exact h.dropListeners.dropTgs
  · -- A delete that came to its end.
    by_cases hown : (ns', name') = (ns, name)
    · cases hown
      exact .of_not_holds (h.not_holds_tornDown hs hnamed)
    · obtain ⟨hlb, -⟩ := hk.resolve_left hown
      refine h.dropListeners.dropTgs.dropLb ((hs.dropListeners _).dropTgs _) hnamed fun heq => hown ?_
      exact hcare.owner.symm.trans ((congrArg o.lb heq).trans hlb)

end

end Converge

end Balancer
