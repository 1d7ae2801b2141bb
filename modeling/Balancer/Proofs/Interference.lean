import Balancer.Proofs.Converge.Lockstep
import Balancer.Proofs.History

/-!
# Services do not interfere

* `SameView m s t` : the resources agree in what goes by the marks of a Service, as the cloud describes it,
  and `SameGround s t` : in the subnets and in the number that is given out next;
* `Undisturbed m s u` : what does not go by the marks is the same, and what is new goes by them;
* `sync_apart` : on two clouds that agree in the view of a Service, a sync of it does the same behind any
  gate, leaves them agreeing in the view, and changes nothing outside.
-/

namespace Balancer

set_option autoImplicit false

namespace Converge

open Cluster Identity Routing Resources

/-! ## Views -/

/-- A listener of the load balancer of the name. -/
def OnView (m : Marks) (s : Resources) (l : Fields) : Prop :=
  ∃ a, LbNamed m.lb (.text a) s ∧ Fields.get l "LoadBalancerArn" = .text a

/-- What belongs to the load balancer of the name, with its listeners in the order in which they are
described, and to the target groups of the names or of the tags, is the same. -/
structure SameView (m : Marks) (s t : Resources) : Prop where
  lb : ∀ k, LbNamed m.lb k s ∨ LbNamed m.lb k t → SameLb k s t
  listeners : ∀ a, LbNamed m.lb (.text a) s → t.listenersOf (.text a) = s.listenersOf (.text a)
  group : ∀ k, Estate.InGroup m k s ∨ Estate.InGroup m k t → SameGroup k s t

/-- The subnets and the number that is given out next are the same. -/
structure SameGround (s t : Resources) : Prop where
  subnets : t.subnets = s.subnets
  subnetTags : t.subnetTags = s.subnetTags
  nextId : t.nextId = s.nextId

/-- Resources under their own ARNs, each of one resource, with names that are taken once. No ARN with a number
that is still to be given out is in use. -/
structure Sound (s : Resources) : Prop where
  tidy : s.Tidy
  disjoint : ∀ k lb tg, s.loadBalancers.get? k = some lb → s.targetGroups.get? k = some tg → False
  fresh : ∀ a, Future s a → s.loadBalancers.get? (.text a) = none ∧ s.lbAttributes.get? (.text a) = none ∧
    s.targetGroups.get? (.text a) = none ∧ s.tgAttributes.get? (.text a) = none ∧
    s.targets.get? (.text a) = none ∧ s.tags.get? (.text a) = none ∧ s.listeners.get? (.text a) = none
  freshOn : ∀ a k l, Future s a → s.listeners.get? k = some l → Fields.get l "LoadBalancerArn" ≠ .text a

/-- No listener outside the view forwards to a target group in it, or to an ARN that is
still to be given out. -/
def Unreached (m : Marks) (s : Resources) : Prop :=
  ∀ a k l, Estate.InGroup m (.text a) s ∨ Future s a → s.listeners.get? k = some l → ¬ OnView m s l →
    ∃ as, actionsOf l = .ok as ∧ forwardsTo (.text a) as = .ok false

/-- What does not go by the marks is the same, and what is new goes by them. -/
structure Undisturbed (m : Marks) (s u : Resources) : Prop where
  subnets : u.subnets = s.subnets
  subnetTags : u.subnetTags = s.subnetTags
  same : ∀ k, ¬ LbNamed m.lb k s → ¬ Estate.InGroup m k s → ¬ OfText (Future s) k →
    SameLb k s u ∧ SameGroup k s u
  newLb : ∀ k lb, u.loadBalancers.get? k = some lb → LbNamed m.lb k u ∨ s.loadBalancers.get? k = some lb
  newGroup : ∀ k tg, u.targetGroups.get? k = some tg →
    Estate.InGroup m k s ∨ Estate.InGroup m k u ∨ SameGroup k s u
  listener : ∀ k l, s.listeners.get? k = some l → ¬ OnView m s l → u.listeners.get? k = some l
  newListener : ∀ k l, u.listeners.get? k = some l →
    OnView m u l ∨ s.listeners.get? k = some l ∧ ¬ OnView m s l

/-! ## The estate of a Service -/

/-- What belongs to a Service when a sync starts, and what may come to belong to it. -/
def estateOf (m : Marks) (s : Resources) : Estate where
  marks := m
  lb a := LbNamed m.lb (.text a) s ∨ Future s a
  group a := Estate.InGroup m (.text a) s ∨ Future s a
  held _ := False

section

variable {m : Marks} {s t u v : Resources} {a : String} {l : Fields} {k : Key}

theorem SameView.refl (m : Marks) (s : Resources) : SameView m s s :=
  ⟨fun _ _ => ⟨rfl, rfl, rfl⟩, fun _ _ => rfl, fun k _ => SameGroup.refl k s⟩

theorem SameGround.refl (s : Resources) : SameGround s s := ⟨rfl, rfl, rfl⟩

theorem SameGround.future_iff (h : SameGround s t) : Future t a ↔ Future s a := by
  unfold Future
  rw [h.nextId]

theorem SameView.lbNamed_iff (h : SameView m s t) : LbNamed m.lb k t ↔ LbNamed m.lb k s := by
  constructor
  · rintro hn
    have hsame := (h.lb k (.inr hn)).loadBalancers
    obtain ⟨fs, hk, hname⟩ := hn
    exact ⟨fs, hsame.symm.trans hk, hname⟩
  · exact fun hn => hn.congr (h.lb k (.inl hn))

theorem SameView.inGroup_iff (h : SameView m s t) : Estate.InGroup m k t ↔ Estate.InGroup m k s := by
  have hcongr : SameGroup k s t → (Estate.InGroup m k t ↔ Estate.InGroup m k s) := by
    intro hsame
    unfold Estate.InGroup tagsOf
    rw [hsame.targetGroups, hsame.tags]
  exact ⟨fun hin => (hcongr (h.group k (.inr hin))).1 hin, fun hin => (hcongr (h.group k (.inl hin))).2 hin⟩

theorem SameView.onView_iff (h : SameView m s t) : OnView m t l ↔ OnView m s l :=
  exists_congr fun _ => and_congr_left' h.lbNamed_iff

/-- A listener of the estate is one of the view, since nothing stands on an ARN that is
still to be given out. -/
theorem Sound.on_estateOf (hs : Sound s) (hl : s.listeners.get? k = some l) :
    (estateOf m s).On l ↔ OnView m s l := by
  constructor
  · rintro ⟨a, hn | hfuture, hon⟩
    · exact ⟨a, hn, hon⟩
    · exact absurd hon (hs.freshOn a k l hfuture hl)
  · rintro ⟨a, hn, hon⟩
    exact ⟨a, .inl hn, hon⟩

theorem Sound.covers (hs : Sound s) (hunreached : Unreached m s) : (estateOf m s).Covers s where
  lb a hn := .inl hn
  group a hin := .inl hin
  future a ha := ⟨.inr ha, .inr ha, (hs.fresh a ha).2.2.2.2.2.2⟩
  apart a tg ha htg := by
    rcases ha with ⟨fs, hk, -⟩ | hfuture
    · exact (hs.disjoint _ fs tg hk htg).elim
    · exact .inr hfuture
  unused a k l ha hl hon := hunreached a k l ha hl fun honview => hon ((hs.on_estateOf hl).2 honview)

/-- Clouds that agree in the view and in the numbers have the same estate of the Service. -/
theorem estateOf_congr (hview : SameView m s t) (hground : SameGround s t) : estateOf m t = estateOf m s := by
  unfold estateOf
  simp only [hview.lbNamed_iff, hview.inGroup_iff, hground.future_iff]

theorem Sound.kept (hs : Sound s) : Resources.Kept (estateOf m s) s s where
  rest := SamePart.refl _ s
  nextId := Nat.le_refl _
  tidy := hs.tidy
  lbMine a fs ha hk := by
    rcases ha with ⟨gs, hk', hn⟩ | hfuture
    · rw [hk] at hk'
      cases hk'
      exact hn
    · rw [(hs.fresh a hfuture).1] at hk
      cases hk
  groupMine a tg hfuture hk := by
    rw [(hs.fresh a hfuture).2.2.1] at hk
    cases hk
  held _ hheld := hheld.elim
  onLb k l a hl ha hon := ha.resolve_right fun hfuture => hs.freshOn a k l hfuture hl hon

/-- The ARN of a listener. -/
def listenerKey (l : Fields) : Key :=
  match Fields.get l "ListenerArn" with
  | .text a => .text a
  | _ => .null

/-- Listeners are told apart by what is described of them. -/
theorem listeners_eq_of_values (hs : s.Tidy) (ht : t.Tidy) {p : Fields → Bool}
    (h : t.listeners.values.filter p = s.listeners.values.filter p) :
    (t.listeners.filter fun _ => p) = s.listeners.filter fun _ => p := by
  have hentries : ∀ {w : Resources}, w.Tidy → (w.listeners.filter fun _ => p).entries =
      (w.listeners.values.filter p).map fun l => (listenerKey l, l) := by
    intro w hw
    rw [← values_filter]
    unfold Table.values
    rw [List.map_map]
    symm
    refine (List.map_congr_left fun x hx => ?_).trans (List.map_id _)
    obtain ⟨a, hk, hown⟩ := hw.listenerOwn (Table.get?_of_mem (List.mem_of_mem_filter hx))
    simp [listenerKey, hown, ← hk]
  unfold Table.filter
  congr 1
  exact (hentries ht).trans ((congrArg _ h).trans (hentries hs).symm)

theorem sameListeners (hs : Sound s) (ht : Sound t) (hview : SameView m s t) (hground : SameGround s t) :
    (t.listeners.filter fun _ => (estateOf m s).own.on) = s.listeners.filter fun _ =>
      (estateOf m s).own.on := by
  refine listeners_eq_of_values hs.tidy ht.tidy ?_
  have hon : ∀ {w : Resources} {l : Fields}, Sound w → SameView m s w → SameGround s w →
      l ∈ w.listeners.values →
      ((estateOf m s).own.on l = true ↔ OnView m s l) := by
    intro w l hw hview hground hl
    obtain ⟨k, hk⟩ := Table.mem_values_iff.1 hl
    rw [Estate.own_on, ← estateOf_congr hview hground, hw.on_estateOf hk, hview.onView_iff]
  by_cases hthere : ∃ a, LbNamed m.lb (.text a) s
  · obtain ⟨a, hn⟩ := hthere
    have hlist : ∀ {w : Resources}, Sound w → SameView m s w → SameGround s w →
        w.listeners.values.filter (estateOf m s).own.on = w.listenersOf (.text a) := by
      intro w hw hview hground
      refine List.filter_congr fun l hl => ?_
      rw [Bool.eq_iff_iff, hon hw hview hground hl, Value.same_text_iff]
      refine ⟨fun ⟨b, hb, hget⟩ => ?_, fun hget => ⟨a, hn, hget⟩⟩
      rw [hget, Key.text.inj (hs.tidy.lbName hn hb)]
    rw [hlist ht hview hground, hlist hs (SameView.refl m s) (SameGround.refl s), hview.listeners a hn]
  · have hnil : ∀ {w : Resources}, Sound w → SameView m s w → SameGround s w →
        w.listeners.values.filter (estateOf m s).own.on = [] := by
      intro w hw hview hground
      refine List.filter_eq_nil_iff.2 fun l hl honl => hthere ?_
      obtain ⟨a, hn, -⟩ := (hon hw hview hground hl).1 honl
      exact ⟨a, hn⟩
    rw [hnil ht hview hground, hnil hs (SameView.refl m s) (SameGround.refl s)]

/-- Clouds that agree in the view of a Service start in lockstep. -/
theorem lockstep_of_sameView (hs : Sound s) (ht : Sound t) (hview : SameView m s t)
    (hground : SameGround s t) :
    Lockstep (estateOf m s) s t s t where
  own := by
    have hlb : ∀ k, OfText (estateOf m s).lb k → SameLb k s t := by
      intro k hk
      cases k with
      | text a =>
        rcases hk with hn | hfuture
        · exact hview.lb _ (.inl hn)
        · obtain ⟨hlb, hattributes, -, -, -, htags, -⟩ := hs.fresh a hfuture
          obtain ⟨hlb', hattributes', -, -, -, htags', -⟩ := ht.fresh a (hground.future_iff.2 hfuture)
          exact ⟨hlb'.trans hlb.symm, hattributes'.trans hattributes.symm, htags'.trans htags.symm⟩
      | _ => exact hk.elim
    have hgroup : ∀ k, OfText (estateOf m s).group k → SameGroup k s t := by
      intro k hk
      cases k with
      | text a =>
        rcases hk with hin | hfuture
        · exact hview.group _ (.inl hin)
        · obtain ⟨-, -, htg, hattributes, htargets, htags, -⟩ := hs.fresh a hfuture
          obtain ⟨-, -, htg', hattributes', htargets', htags', -⟩ := ht.fresh a (hground.future_iff.2 hfuture)
          exact ⟨htg'.trans htg.symm, hattributes'.trans hattributes.symm, htargets'.trans htargets.symm,
            htags'.trans htags.symm⟩
      | _ => exact hk.elim
    exact {
      subnets := hground.subnets
      subnetTags := hground.subnetTags
      loadBalancers := fun k hk => (hlb k hk).loadBalancers
      lbAttributes := fun k hk => (hlb k hk).lbAttributes
      targetGroups := fun k hk => (hgroup k hk).targetGroups
      tgAttributes := fun k hk => (hgroup k hk).tgAttributes
      targets := fun k hk => (hgroup k hk).targets
      tags := fun k hk => by
        cases k with
        | text a => exact hk.elim (fun ha => (hlb (.text a) ha).tags) fun ha => (hgroup (.text a) ha).tags
        | _ => exact hk.elim
      listeners := sameListeners hs ht hview hground }
  nextId := hground.nextId
  left := hs.kept
  right := estateOf_congr hview hground ▸ ht.kept

/-! ## What two runs in lockstep leave -/

/-- Of what is kept, nothing outside the view has changed. -/
theorem undisturbed_of_kept (hs : Sound s) (hunreached : Unreached m s)
    (h : Resources.Kept (estateOf m s) s u) : Undisturbed m s u where
  subnets := h.rest.subnets
  subnetTags := h.rest.subnetTags
  same k hlb hgroup hfuture := by
    have hnot : ¬ OfText (estateOf m s).lb k ∧ ¬ OfText (estateOf m s).group k ∧
        ¬ OfText (fun a => (estateOf m s).lb a ∨ (estateOf m s).group a) k := by
      cases k with
      | text a => exact ⟨fun h => h.elim hlb hfuture, fun h => h.elim hgroup hfuture,
          fun h => h.elim (fun h => h.elim hlb hfuture) fun h => h.elim hgroup hfuture⟩
      | _ => exact ⟨id, id, id⟩
    obtain ⟨hnlb, hngroup, hntags⟩ := hnot
    have htags := h.rest.tags k hntags
    exact ⟨⟨h.rest.loadBalancers k hnlb, h.rest.lbAttributes k hnlb, htags⟩, h.rest.targetGroups k hngroup,
      h.rest.tgAttributes k hngroup, h.rest.targets k hngroup, htags⟩
  newLb k lb hk := by
    obtain ⟨a, rfl, -⟩ := h.tidy.lbOwn hk
    by_cases ha : (estateOf m s).lb a
    · exact .inl ⟨lb, hk, h.lbMine a lb ha hk⟩
    · rw [h.rest.loadBalancers (.text a) ha] at hk
      exact .inr hk
  newGroup k tg hk := by
    obtain ⟨a, rfl, -⟩ := h.tidy.tgOwn hk
    by_cases hin : Estate.InGroup m (.text a) s
    · exact .inl hin
    by_cases hfuture : Future s a
    · exact .inr (.inl ⟨tg, hk, .inl (h.groupMine a tg hfuture hk)⟩)
    · have hngroup : ¬ (estateOf m s).group a := fun h => h.elim hin hfuture
      have hthere := h.rest.targetGroups (.text a) hngroup
      have hntags : ¬ ((estateOf m s).lb a ∨ (estateOf m s).group a) := by
        rintro (hlb | hgroup)
        · exact hngroup ((hs.covers hunreached).apart a tg hlb (hthere.symm.trans hk))
        · exact hngroup hgroup
      exact .inr (.inr ⟨hthere, h.rest.tgAttributes _ hngroup, h.rest.targets _ hngroup,
        h.rest.tags _ hntags⟩)
  listener k l hl hoff := by
    have hget : (s.listeners.filter fun _ => (estateOf m s).rest.on).get? k = some l := by
      rw [Table.get?_filter_values, hl]
      simp [Option.filter, hs.on_estateOf hl, hoff]
    rw [← h.rest.listeners, Table.get?_filter_values] at hget
    exact (Option.filter_eq_some_iff.1 hget).1
  newListener k l hl := by
    by_cases hon : (estateOf m s).On l
    · obtain ⟨a, ha, hget⟩ := hon
      exact .inl ⟨a, h.onLb k l a hl ha hget, hget⟩
    · have hget : (u.listeners.filter fun _ => (estateOf m s).rest.on).get? k = some l := by
        rw [Table.get?_filter_values, hl]
        simp [Option.filter, hon]
      rw [h.rest.listeners, Table.get?_filter_values] at hget
      have hsl := (Option.filter_eq_some_iff.1 hget).1
      exact .inr ⟨hsl, fun honview => hon ((hs.on_estateOf hsl).2 honview)⟩

theorem sameView_of_lockstep {e : Estate} (h : Lockstep e s t u v) (hs : e.Covers s) (ht : e.Covers t) :
    SameView e.marks u v ∧ SameGround u v := by
  refine ⟨⟨fun k hk => ?_, fun a hn => h.listenersOf_eq (h.left.lb_of_named hs hn), fun k hk => ?_⟩,
    h.own.subnets, h.own.subnetTags, h.nextId⟩
  · have hlb : ∃ a, k = .text a ∧ e.lb a := by
      rcases hk with ⟨fs, hget, hn⟩ | ⟨fs, hget, hn⟩
      · obtain ⟨a, rfl, -⟩ := h.left.tidy.lbOwn hget
        exact ⟨a, rfl, h.left.lb_of_named hs ⟨fs, hget, hn⟩⟩
      · obtain ⟨a, rfl, -⟩ := h.right.tidy.lbOwn hget
        exact ⟨a, rfl, h.right.lb_of_named ht ⟨fs, hget, hn⟩⟩
    obtain ⟨a, rfl, ha⟩ := hlb
    exact ⟨h.get?_lb ha, h.own.lbAttributes (.text a) ha, h.get?_tags (.inl ha)⟩
  · have hgroup : ∃ a, k = .text a ∧ e.group a := by
      rcases hk with ⟨tg, hget, hin⟩ | ⟨tg, hget, hin⟩
      · obtain ⟨a, rfl, -⟩ := h.left.tidy.tgOwn hget
        exact ⟨a, rfl, h.left.group_of_inGroup hs ⟨tg, hget, hin⟩⟩
      · obtain ⟨a, rfl, -⟩ := h.right.tidy.tgOwn hget
        exact ⟨a, rfl, h.right.group_of_inGroup ht ⟨tg, hget, hin⟩⟩
    obtain ⟨a, rfl, ha⟩ := hgroup
    exact ⟨h.get?_group ha, h.own.tgAttributes (.text a) ha, h.own.targets (.text a) ha,
      h.get?_tags (.inr ha)⟩

/-! ## A sync of one Service -/

/-- The declared actions of the Service of a key name no target group. -/
def KeyApart (i : Inputs) (key : Value) (s : Resources) : Prop :=
  ∀ service, wantedAt i key = .ok (some service) → DeclaresApart i service s

/-- On two clouds that agree in the view of a Service, a sync of it behind any gate, which may cut it off at
any request, asks the same, records the same and ends alike. It leaves the clouds agreeing in the view and
changes nothing outside. -/
theorem sync_apart {γ : Type} {i : Inputs} {key : Value} (hm : m.Keyed i key) (hs : Sound s) (ht : Sound t)
    (hview : SameView m s t) (hground : SameGround s t) (hsreach : Unreached m s) (htreach : Unreached m t)
    (hsapart : KeyApart i key s) (htapart : KeyApart i key t) (g : Gate γ) (c : γ)
    (before before' : List Record) :
    ∃ x c' rs u v, (sync i key).run (Memory.cloud g) (c, ⟨s, before⟩) = (x, (c', ⟨u, before ++ rs⟩)) ∧
      (sync i key).run (Memory.cloud g) (c, ⟨t, before'⟩) = (x, (c', ⟨v, before' ++ rs⟩)) ∧
      SameView m u v ∧ SameGround u v ∧ Undisturbed m s u ∧ Undisturbed m t v := by
  have hcovers := hs.covers hsreach
  have hcovers' : (estateOf m s).Covers t := estateOf_congr hview hground ▸ ht.covers htreach
  have hstart := lockstep_of_sameView hs ht hview hground
  have htwin := twin_sync (e := estateOf m s) hm
    (fun service hwanted => ⟨hsapart service hwanted, htapart service hwanted⟩)
    (fun _ => id) hcovers hcovers' hstart
  obtain ⟨x, c', rs, u, v, hu, hv, hend, -⟩ := htwin.run g c before before'
  obtain ⟨hview', hground'⟩ := sameView_of_lockstep hend hcovers hcovers'
  have hright : Resources.Kept (estateOf m t) t v := (estateOf_congr hview hground).symm ▸ hend.right
  exact ⟨x, c', rs, u, v, hu, hv, hview', hground', undisturbed_of_kept hs hsreach hend.left,
    undisturbed_of_kept ht htreach hright⟩

/-! ## The view of a stored Service -/

/-- The marks of the Service of a key: the name of its load balancer, the names of the target groups of its
backends as the store has it, and the tags of their owner. -/
def serviceMarks (i : Inputs) (key : Value) (stem cluster ns name : String) : Marks where
  lb := lbName stem ns name
  group n := ∃ service settings, i.store.find? .service key = .ok (some service) ∧
    settingsOf i service = .ok settings ∧
    ServiceGroups i service settings n
  selector := ownerTags cluster ns name

theorem keyed_serviceMarks {i : Inputs} {key : Value} {stem cluster ns name : String}
    (hstem : i.identity.stem = .text stem) (hcluster : i.identity.clusterName = .text cluster)
    (hkey : splitKey key = .ok (ns, name))
    (hnames : ∀ service n, i.store.find? .service key = .ok (some service) → names service = .ok n →
      n = (.text ns, .text name)) : (serviceMarks i key stem cluster ns name).Keyed i key where
  wanted service hwanted := by
    have hfound := find?_of_wantedAt hwanted
    refine ⟨fun ns' name' n hn hlb => ?_, fun settings n hsettings hn =>
      ⟨service, settings, hfound, hsettings, hn⟩, fun ns' name' selector hn hsel => ?_⟩
    · cases hnames service _ hfound hn
      rw [nameLb_text hstem] at hlb
      exact Except.ok.inj hlb
    · cases hnames service _ hfound hn
      rw [selector_text hcluster] at hsel
      cases hsel
      rfl
  gone _ ns' name' hkey' := by
    rw [hkey] at hkey'
    cases hkey'
    refine ⟨fun n hlb => ?_, fun selector hsel => ?_⟩
    · rw [nameLb_text hstem] at hlb
      exact (Except.ok.inj hlb).symm
    · rw [selector_text hcluster] at hsel
      cases hsel
      rfl

/-! ## A neighbour -/

/-- A cloud with nothing in it. -/
def vacant : Resources := { nextId := 4 }

/-- A cloud with a load balancer, a target group and a listener of somebody else. -/
def occupied : Resources where
  nextId := 4
  loadBalancers := .ofList [(.text (lbArn "other" 1),
    [("LoadBalancerArn", .text (lbArn "other" 1)), ("LoadBalancerName", .text "other")])]
  targetGroups := .ofList [(.text (tgArn "other" 2),
    [("TargetGroupArn", .text (tgArn "other" 2)), ("TargetGroupName", .text "other"),
      ("Protocol", .text "TCP")])]
  targets := .ofList [(.text (tgArn "other" 2), [])]
  tags := .ofList [(.text (tgArn "other" 2), .ofList [(.text "owner", .text "other")])]
  listeners := .ofList [(.text (listenerArn 3), [("ListenerArn", .text (listenerArn 3)),
    ("LoadBalancerArn", .text (lbArn "other" 1)), ("Port", .int 80), ("Protocol", .text "TCP"),
    ("DefaultActions", .list [.object [("TargetGroupArn", .text (tgArn "other" 2))]])])]

theorem get?_single {β : Type} {b : String} {k : Key} {x y : β}
    (h : (Table.ofList [(Key.text b, x)]).get? k = some y) :
    k = .text b ∧ x = y := by
  have hinsert : ((∅ : Table Key β).insert (.text b) x).get? k = some y := h
  rcases Table.get?_insert_text_iff.1 hinsert with h | ⟨-, h⟩
  · exact h
  · cases h

/-- An ARN with a number that is given out is not one that is to be given out. -/
theorem get?_single_of_future {β : Type} {s : Resources} {a b : String} {n : Nat} {x : β}
    (ha : Future s a) (hn : n < s.nextId) (hb : Numbered n b) :
    (Table.ofList [(Key.text b, x)]).get? (.text a) = none := by
  obtain ⟨m, hm, hnumber⟩ := ha
  refine Option.eq_none_iff_forall_ne_some.2 fun y h => ?_
  cases (get?_single h).1
  have := hnumber.unique hb
  omega

theorem sound_vacant : Sound vacant where
  tidy :=
    { lbOwn := fun h => nomatch h
      tgOwn := fun h => nomatch h
      listenerOwn := fun h => nomatch h
      lbName := fun ⟨_, h, _⟩ => nomatch h
      tgName := fun ⟨_, h, _⟩ => nomatch h }
  disjoint _ _ _ h := nomatch h
  fresh _ _ := ⟨rfl, rfl, rfl, rfl, rfl, rfl, rfl⟩
  freshOn _ _ _ _ h := nomatch h

theorem sound_occupied : Sound occupied where
  tidy :=
    { lbOwn := fun h => by
        obtain ⟨rfl, rfl⟩ := get?_single h
        exact ⟨_, rfl, rfl⟩
      tgOwn := fun h => by
        obtain ⟨rfl, rfl⟩ := get?_single h
        exact ⟨_, rfl, rfl⟩
      listenerOwn := fun h => by
        obtain ⟨rfl, rfl⟩ := get?_single h
        exact ⟨_, rfl, rfl⟩
      lbName := fun ⟨_, h, _⟩ ⟨_, h', _⟩ => (get?_single h).1.trans (get?_single h').1.symm
      tgName := fun ⟨_, h, _⟩ ⟨_, h', _⟩ => (get?_single h).1.trans (get?_single h').1.symm }
  disjoint k lb tg h h' := by
    have hne : lbArn "other" 1 = tgArn "other" 2 → False := by decide +kernel
    exact hne (Key.text.inj ((get?_single h).1.symm.trans (get?_single h').1))
  fresh a ha := by
    have hlb := numbered_lbArn "other" 1
    have htg := numbered_tgArn "other" 2
    exact ⟨get?_single_of_future ha (by decide) hlb, rfl, get?_single_of_future ha (by decide) htg, rfl,
      get?_single_of_future ha (by decide) htg, get?_single_of_future ha (by decide) htg,
      get?_single_of_future ha (by decide) (numbered_listenerArn 3)⟩
  freshOn a k l ha h hon := by
    obtain ⟨-, rfl⟩ := get?_single h
    have hlb : Value.text (lbArn "other" 1) = .text a := hon
    obtain ⟨m, hm, hnumber⟩ := ha
    rw [← Value.text.inj hlb] at hnumber
    have := hnumber.unique (numbered_lbArn "other" 1)
    have hid : occupied.nextId = 4 := rfl
    omega

/-- A hyphen stands in the name of every target group of a backend. -/
theorem hyphen_mem_of_groupName {i : Inputs} {service : Value} {settings : ServiceSettings}
    {b : Backend} {n : String} (h : groupName i service settings b = .ok n) : '-' ∈ n.toList := by
  obtain ⟨⟨ns, name⟩, -, h⟩ := bind_eq_ok_iff.1 h
  unfold nameTg at h
  iterate 7 obtain ⟨_, -, h⟩ := bind_eq_ok_iff.1 h
  cases h
  simp [tgName]

/-- The marks of the Service to sync. -/
def webMarks : Marks :=
  serviceMarks (storedInputs (offering "internal")) (.text "default/web") "nlb" "main" "default" "web"

theorem keyed_webMarks : webMarks.Keyed (storedInputs (offering "internal")) (.text "default/web") := by
  refine keyed_serviceMarks rfl rfl rfl fun service n hfound hn => ?_
  have hservice : (storedInputs (offering "internal")).store.find? .service (.text "default/web") =
    .ok (some (schemeService "internal")) := rfl
  rw [hservice] at hfound
  cases hfound
  exact (Except.ok.inj hn).symm

theorem not_lbNamed_occupied (k : Key) : ¬ LbNamed webMarks.lb k occupied := by
  rintro ⟨fs, hk, hn⟩
  obtain ⟨-, rfl⟩ := get?_single hk
  have hne : "other" = webMarks.lb → False := by decide +kernel
  exact hne (Value.text.inj hn)

theorem not_inGroup_occupied (k : Key) : ¬ Estate.InGroup webMarks k occupied := by
  rintro ⟨tg, hk, hin⟩
  obtain ⟨rfl, rfl⟩ := get?_single hk
  rcases hin with ⟨n, ⟨service, settings, -, -, specs, -, b, -, -, hname⟩, hn⟩ | htags
  · have hn : Value.text "other" = .text n := hn
    cases hn
    exact absurd (hyphen_mem_of_groupName hname) (by decide)
  · have hno : hasTags webMarks.selector (occupied.tagsOf (.text (tgArn "other" 2))) = false := by
      decide +kernel
    rw [hno] at htags
    cases htags

theorem sameView_occupied : SameView webMarks vacant occupied where
  lb k hk := hk.elim (fun ⟨_, h, _⟩ => nomatch h) fun h => (not_lbNamed_occupied k h).elim
  listeners _ h := by
    obtain ⟨_, h, -⟩ := h
    cases h
  group k hk := hk.elim (fun ⟨_, h, _⟩ => nomatch h) fun h => (not_inGroup_occupied k h).elim

theorem unreached_occupied : Unreached webMarks occupied := by
  intro a k l ha hl _
  have hfuture := ha.resolve_left (not_inGroup_occupied _)
  obtain ⟨-, rfl⟩ := get?_single hl
  refine ⟨_, rfl, ?_⟩
  have hne : ((Value.text (tgArn "other" 2)).same (.text a)) = false := by
    rw [Bool.eq_false_iff, ne_eq, Value.same_text_iff]
    rintro h
    obtain ⟨m, hm, hnumber⟩ := hfuture
    rw [← Value.text.inj h] at hnumber
    have := hnumber.unique (numbered_tgArn "other" 2)
    have hid : occupied.nextId = 4 := rfl
    omega
  show (if (Value.text (tgArn "other" 2)).same (.text a) then _ else _) = _
  rw [hne]
  rfl

theorem keyApart_offering (s : Resources) :
    KeyApart (storedInputs (offering "internal")) (.text "default/web") s := by
  intro service hwanted settings hsettings name action haction
  have hservice : wantedAt (storedInputs (offering "internal")) (.text "default/web") =
      .ok (some (schemeService "internal")) := rfl
  rw [hservice] at hwanted
  cases hwanted
  have hnone : (settingsOf (storedInputs (offering "internal")) (schemeService "internal")).toOption.map
      (fun settings => settings.actions.entries.length) = some 0 := by decide +kernel
  rw [hsettings] at hnone
  have hempty : settings.actions.entries = [] := List.length_eq_zero_iff.1 (Option.some.inj hnone)
  rw [Table.get?, hempty] at haction
  cases haction

/-- A sync of a new Service does the same on the two clouds, and leaves what is somebody else's alone. -/
theorem sync_apart_occupied :
    ∃ x rs u v, (sync (storedInputs (offering "internal")) (.text "default/web")).run (Memory.cloud Gate.free)
        ((), ⟨vacant, []⟩) = (x, ((), ⟨u, rs⟩)) ∧
      (sync (storedInputs (offering "internal")) (.text "default/web")).run (Memory.cloud Gate.free)
        ((), ⟨occupied, []⟩) = (x, ((), ⟨v, rs⟩)) ∧
      SameView webMarks u v ∧ Undisturbed webMarks occupied v ∧ x.isOk = true ∧ rs ≠ [] := by
  have hends : ((sync (storedInputs (offering "internal")) (.text "default/web")).run (Memory.cloud Gate.free)
      ((), ⟨vacant, []⟩)).1.isOk = true ∧
        ((sync (storedInputs (offering "internal")) (.text "default/web")).run
        (Memory.cloud Gate.free) ((), ⟨vacant, []⟩)).2.2.records.isEmpty = false := by
    set_option maxRecDepth 100000 in decide +kernel
  have hnone : ∀ k, ¬ LbNamed webMarks.lb k vacant := fun k ⟨_, h, _⟩ => nomatch h
  obtain ⟨x, c', rs, u, v, hu, hv, hview, -, -, hrest⟩ :=
    sync_apart keyed_webMarks sound_vacant sound_occupied
    sameView_occupied ⟨rfl, rfl, rfl⟩ (fun _ _ _ _ h => nomatch h) unreached_occupied
      (keyApart_offering vacant)
    (keyApart_offering occupied) Gate.free () [] []
  rw [hu] at hends
  refine ⟨x, rs, u, v, hu, hv, hview, hrest, hends.1, ?_⟩
  rintro rfl
  cases hends.2

end

end Converge

end Balancer
