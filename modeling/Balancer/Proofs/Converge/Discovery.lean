import Balancer.Proofs.Converge.Resolution
import Balancer.Proofs.Text

/-!
# Which subnets are discovered for a cluster

Tags of subnets stand under ARNs, descriptions under identifiers, and what is looked up are the parts of ARNs
after the last slash. Of the described subnets that are found, one for each zone is taken.

* `ZonedSubnet`, `ZonedSubnet.Describes` : a subnet with its zone, and what describes it;
* `CountsFor`, `Qualified` : which tags, and so which subnets, count for a cluster and a scheme;
* `firsts` : what `firstOfZones` takes (`firstOfZones_eq`): the subnets in front of which there is
  none of their zone (`mem_firsts`), no two of one zone (`nodup_zones_firsts`), and some of every
  zone (`zone_mem_firsts`);
* `clusterSubnets_spec` : discovery is refused just if there is no role for the scheme or all qualified
  subnets are of one zone, else it gives the first qualified subnet of each zone.
-/

namespace Balancer

set_option autoImplicit false

namespace Converge

/-- A subnet with its zone; those without one count as a zone of their own. -/
structure ZonedSubnet extends Subnet where
  zone : Option String
  deriving DecidableEq

/-- What describes a subnet, and with it its zone, which is missing or null if there is none. -/
structure ZonedSubnet.Describes (r : ZonedSubnet) (v : Value) : Prop where
  subnet : r.toSubnet.Describes v
  zone : v.get "AvailabilityZone" = .ok ((r.zone.map .text).getD .null)

/-- An ARN with an identifier after its last slash. -/
def EndsIn (arn id : String) : Prop := ∃ start, arn = start ++ "/" ++ id ∧ '/' ∉ id.toList

/-- The role of a scheme. -/
inductive IsRole : Value → String → Prop
  | internal : IsRole (.text "internal") "kubernetes.io/role/internal-elb"
  | internetFacing : IsRole (.text "internet-facing") "kubernetes.io/role/elb"

/-- Tags of a subnet that a cluster owns or shares, and that has a role. -/
structure CountsFor (cluster role : String) (tags : Fields) : Prop where
  ofCluster : (Fields.get tags (Identity.clusterKey cluster)).isOneOf ["owned", "shared"] = true
  ofRole : ∃ e ∈ tags, e.1 = role

/-- A subnet is tagged for a cluster and the role of a scheme. -/
def Qualified (s : Resources) (cluster : String) (scheme : Value) (r : ZonedSubnet) : Prop :=
  ∃ role arn tags, IsRole scheme role ∧ (arn, .object tags) ∈ s.subnetTags.entries ∧ EndsIn arn r.id ∧
    CountsFor cluster role tags

/-- Described subnets, no two of one identifier, tags by ARNs of subnets, and no subnet whose name is an
identifier in an ARN. -/
structure Inventory (s : Resources) (rows : List ZonedSubnet) : Prop where
  described : List.Forall₂ ZonedSubnet.Describes rows s.subnets
  nodup : (rows.map fun r => r.id).Nodup
  tagged : ∀ e ∈ s.subnetTags.entries, ∃ id tags, EndsIn e.1 id ∧ e.2 = .object tags
  named : ∀ r ∈ rows, ∀ e ∈ s.subnetTags.entries, ∀ id, EndsIn e.1 id → r.name ≠ some id

/-- All subnets that satisfy a condition are of one zone. -/
def OneZone (rows : List ZonedSubnet) (P : ZonedSubnet → Prop) : Prop :=
  ∀ r ∈ rows, ∀ r' ∈ rows, P r → P r' → r.zone = r'.zone

/-- A subnet that satisfies a condition, as none in front of it in its zone does. -/
def IsFirst (rows : List ZonedSubnet) (P : ZonedSubnet → Prop) (r : ZonedSubnet) : Prop :=
  P r ∧ ∃ before after, rows = before ++ r :: after ∧ ∀ q ∈ before, P q → q.zone ≠ r.zone

/-- The identifiers of the subnets that are the first of their zone to satisfy a condition, in order and none
twice; so for every zone with such a subnet there is one. -/
structure Discovered (rows : List ZonedSubnet) (P : ZonedSubnet → Prop) (ids : List String) : Prop where
  sorted : ids.Pairwise (· < ·)
  firsts : ∀ id, id ∈ ids ↔ ∃ r, IsFirst rows P r ∧ r.id = id
  alone : ∀ r ∈ rows, P r → ∃! id, id ∈ ids ∧ ∃ q ∈ rows, P q ∧ q.zone = r.zone ∧ q.id = id

section

variable {rows : List ZonedSubnet} {seen : List (Option String)} {r : ZonedSubnet}
  {s : Resources} {m : Memory} {cluster role arn id : String} {scheme : Value} {vs : List Value}

/-! ## The first of each zone -/

/-- The first subnets of all zones that are not yet seen. -/
def firsts (seen : List (Option String)) : List ZonedSubnet → List ZonedSubnet
  | [] => []
  | r :: rows => if r.zone ∈ seen then firsts seen rows else r :: firsts (r.zone :: seen) rows

/-- The key that a zone is remembered by. -/
def zoneKey (zone : Option String) : Key := (zone.map .text).getD .null

theorem contains_zoneKey (seen : List (Option String)) (zone : Option String) :
    (seen.map zoneKey).contains (zoneKey zone) = decide (zone ∈ seen) := by
  have hbeq : ∀ z : Option String, (zoneKey zone == zoneKey z) = decide (zone = z) := by
    intro z
    rw [Bool.eq_iff_iff, Key.beq_iff_meaning, decide_eq_true_eq]
    cases zone <;> cases z <;> simp [zoneKey, Key.meaning]
  induction seen with
  | nil => rfl
  | cons z seen ih =>
    rw [List.map_cons, List.contains_cons, ih, hbeq, Bool.eq_iff_iff]
    simp

theorem ZonedSubnet.Describes.key {v : Value} (h : r.Describes v) :
    (do (← v.get "AvailabilityZone").key) = (.ok (zoneKey r.zone) : Except Error Key) := by
  rw [h.zone]
  cases r.zone <;> rfl

theorem firstOfZones_eq (h : List.Forall₂ ZonedSubnet.Describes rows vs) (seen : List (Option String)) :
    firstOfZones (seen.map zoneKey) vs = .ok ((firsts seen rows).map fun r => .text r.id) := by
  induction h generalizing seen with
  | nil => rfl
  | @cons r v rows vs hr _ ih =>
    have hzone := hr.key
    unfold firstOfZones firsts
    obtain ⟨zone, hget, hkey⟩ := bind_eq_ok_iff.1 hzone
    rw [hget]
    show (zone.key >>= _) = _
    rw [hkey]
    simp only [bind, Except.bind, contains_zoneKey, hr.subnet.id]
    by_cases hseen : r.zone ∈ seen
    · rw [if_pos (by simpa using hseen), if_pos hseen]
      exact ih seen
    · rw [if_neg (by simpa using hseen), if_neg hseen]
      have hrest := ih (r.zone :: seen)
      rw [List.map_cons] at hrest
      rw [hrest]
      rfl

theorem mem_firsts : r ∈ firsts seen rows ↔
    r.zone ∉ seen ∧ ∃ before after, rows = before ++ r :: after ∧ ∀ q ∈ before, q.zone ≠ r.zone := by
  induction rows generalizing seen with
  | nil => simp [firsts]
  | cons q rows ih =>
    unfold firsts
    constructor
    · intro h
      split at h
      · rename_i hq
        obtain ⟨hr, before, after, rfl, hbefore⟩ := ih.1 h
        refine ⟨hr, q :: before, after, rfl, List.forall_mem_cons.2 ⟨?_, hbefore⟩⟩
        exact fun hzone => hr (hzone ▸ hq)
      · rename_i hq
        rcases List.mem_cons.1 h with rfl | h
        · exact ⟨hq, [], rows, rfl, by simp⟩
        · obtain ⟨hr, before, after, rfl, hbefore⟩ := ih.1 h
          obtain ⟨hne, hr⟩ := not_or.1 (List.mem_cons.not.1 hr)
          exact ⟨hr, q :: before, after, rfl, List.forall_mem_cons.2 ⟨Ne.symm hne, hbefore⟩⟩
    · rintro ⟨hr, before, after, heq, hbefore⟩
      cases before with
      | nil =>
        obtain ⟨rfl, rfl⟩ := List.cons.inj heq
        rw [if_neg hr]
        exact List.mem_cons_self
      | cons p before =>
        obtain ⟨rfl, rfl⟩ := List.cons.inj heq
        obtain ⟨hne, hbefore⟩ := List.forall_mem_cons.1 hbefore
        split
        · exact ih.2 ⟨hr, before, after, rfl, hbefore⟩
        · refine List.mem_cons_of_mem _ (ih.2 ⟨?_, before, after, rfl, hbefore⟩)
          exact List.mem_cons.not.2 (not_or.2 ⟨Ne.symm hne, hr⟩)

theorem firsts_sublist (seen : List (Option String)) (rows : List ZonedSubnet) :
    (firsts seen rows).Sublist rows := by
  induction rows generalizing seen with
  | nil => exact .slnil
  | cons r rows ih =>
    unfold firsts
    split
    · exact (ih seen).cons r
    · exact (ih _).cons_cons r

theorem nodup_zones_firsts (seen : List (Option String)) (rows : List ZonedSubnet) :
    ((firsts seen rows).map ZonedSubnet.zone).Nodup := by
  induction rows generalizing seen with
  | nil => exact List.nodup_nil
  | cons r rows ih =>
    unfold firsts
    split
    · exact ih seen
    · refine List.nodup_cons.2 ⟨?_, ih _⟩
      rintro hmem
      obtain ⟨q, hq, hzone⟩ := List.mem_map.1 hmem
      exact (mem_firsts.1 hq).1 (hzone ▸ List.mem_cons_self)

theorem zone_mem_firsts (seen : List (Option String)) (hr : r ∈ rows) (hseen : r.zone ∉ seen) :
    ∃ q ∈ firsts seen rows, q.zone = r.zone := by
  induction rows generalizing seen with
  | nil => cases hr
  | cons p rows ih =>
    unfold firsts
    split
    · rename_i hp
      refine ih _ ((List.mem_cons.1 hr).resolve_left ?_) hseen
      rintro rfl
      exact hseen hp
    · by_cases hzone : p.zone = r.zone
      · exact ⟨p, List.mem_cons_self, hzone⟩
      · have hrows : r ∈ rows := (List.mem_cons.1 hr).resolve_left fun heq => hzone (heq ▸ rfl)
        obtain ⟨q, hq, hqz⟩ := ih _ hrows (List.mem_cons.not.2 (not_or.2 ⟨Ne.symm hzone, hseen⟩))
        exact ⟨q, List.mem_cons_of_mem _ hq, hqz⟩

theorem mem_firsts_filter {P : ZonedSubnet → Prop} {p : ZonedSubnet → Bool}
    (hp : ∀ r ∈ rows, p r = true ↔ P r) :
    r ∈ firsts [] (rows.filter p) ↔ IsFirst rows P r := by
  rw [mem_firsts]
  constructor
  · rintro ⟨-, before, after, heq, hbefore⟩
    obtain ⟨before', after', rfl, hbefore', hafter⟩ := List.filter_eq_append_iff.1 heq
    obtain ⟨between, after, rfl, hbetween, hr, -⟩ := List.filter_eq_cons_iff.1 hafter
    refine ⟨(hp r (by simp)).1 hr, before' ++ between, after, by simp, fun q hq hP => hbefore q ?_⟩
    -- what stands between the two is left out by the filter
    have hmem : q ∈ (before' ++ between).filter p :=
      List.mem_filter.2 ⟨hq, (hp q (by simp at hq ⊢; tauto)).2 hP⟩
    rwa [List.filter_append, List.filter_eq_nil_iff.2 hbetween, List.append_nil, hbefore'] at hmem
  · rintro ⟨hP, before, after, rfl, hbefore⟩
    refine ⟨by simp, before.filter p, after.filter p, ?_, fun q hq => ?_⟩
    · rw [List.filter_append, List.filter_cons_of_pos ((hp r (by simp)).2 hP)]
    · obtain ⟨hq, hpq⟩ := List.mem_filter.1 hq
      exact hbefore q hq ((hp q (by simp [hq])).1 hpq)

theorem length_firsts_lt {P : ZonedSubnet → Prop} {p : ZonedSubnet → Bool}
    (hp : ∀ r ∈ rows, p r = true ↔ P r) :
    (firsts [] (rows.filter p)).length < minClusterSubnets ↔ OneZone rows P := by
  unfold minClusterSubnets
  have hnodup := nodup_zones_firsts [] (rows.filter p)
  constructor
  · intro hlen r hr r' hr' hP hP'
    obtain ⟨q, hq, hzone⟩ := zone_mem_firsts [] (List.mem_filter.2 ⟨hr, (hp r hr).2 hP⟩) (by simp)
    obtain ⟨q', hq', hzone'⟩ := zone_mem_firsts [] (List.mem_filter.2 ⟨hr', (hp r' hr').2 hP'⟩) (by simp)
    rw [← hzone, ← hzone']
    match hfirsts : firsts [] (rows.filter p), hlen with
    | [], _ => simp [hfirsts] at hq
    | [p], _ =>
      rw [hfirsts, List.mem_singleton] at hq hq'
      rw [hq, hq']
  · intro hone
    by_contra hlen
    match hfirsts : firsts [] (rows.filter p), hlen with
    | a :: b :: rest, _ =>
      have hmem : ∀ q ∈ [a, b], q ∈ rows ∧ P q := by
        intro q hq
        have hsub : q ∈ firsts [] (rows.filter p) := by
          rw [hfirsts]
          exact List.mem_of_mem_take (i := 2) hq
        obtain ⟨hrows, hpq⟩ := List.mem_filter.1 ((firsts_sublist [] _).subset hsub)
        exact ⟨hrows, (hp q hrows).1 hpq⟩
      rw [hfirsts, List.map_cons, List.map_cons] at hnodup
      refine (List.nodup_cons.1 hnodup).1 (List.mem_cons.2 (.inl ?_))
      exact hone a (hmem a (by simp)).1 b (hmem b (by simp)).1 (hmem a (by simp)).2 (hmem b (by simp)).2
    | [], hlen => simp at hlen
    | [a], hlen => simp at hlen

/-! ## What is tagged -/

theorem exists_isRole_iff :
    (∃ role, IsRole scheme role) ↔ scheme = .text "internal" ∨ scheme = .text "internet-facing" := by
  constructor
  · rintro ⟨_, _ | _⟩
    · exact .inl rfl
    · exact .inr rfl
  · rintro (rfl | rfl)
    · exact ⟨_, .internal⟩
    · exact ⟨_, .internetFacing⟩

theorem roleKey?_eq_some_iff : roleKey? scheme = some role ↔ IsRole scheme role := by
  constructor
  · intro h
    unfold roleKey? at h
    split at h
    · rename_i hs
      obtain rfl := (Value.same_text_iff _ _).1 hs
      cases h
      exact .internal
    · split at h
      · rename_i hs
        obtain rfl := (Value.same_text_iff _ _).1 hs
        cases h
        exact .internetFacing
      · cases h
  · rintro (_ | _) <;> rfl

theorem EndsIn.subnetOfArn (h : EndsIn arn id) : subnetOfArn (.text arn) = .ok id := by
  obtain ⟨start, rfl, hid⟩ := h
  exact congrArg Except.ok (Text.afterLast_append '/' start hid)

theorem EndsIn.unique {id' : String} (h : EndsIn arn id) (h' : EndsIn arn id') : id = id' :=
  Except.ok.inj (h.subnetOfArn.symm.trans h'.subnetOfArn)

/-- The tags of an entry. -/
def tagsOfEntry (e : String × Value) : Fields := e.2.fields?.getD []

/-- Whether tags count for a cluster and a role. -/
def counts (cluster role : String) (tags : Fields) : Bool :=
  (Fields.get tags (Identity.clusterKey cluster)).isOneOf ["owned", "shared"] && tags.any fun e => e.1 == role

theorem counts_iff {tags : Fields} : counts cluster role tags = true ↔ CountsFor cluster role tags := by
  unfold counts
  rw [Bool.and_eq_true, List.any_eq_true]
  constructor
  · rintro ⟨hcluster, e, he, hrole⟩
    exact ⟨hcluster, e, he, eq_of_beq hrole⟩
  · rintro ⟨hcluster, e, he, rfl⟩
    exact ⟨hcluster, e, he, beq_self_eq_true _⟩

/-- The identifiers of the subnets with tags that count. -/
def markedIds (s : Resources) (cluster role : String) : List String :=
  (s.subnetTags.entries.filter fun e => counts cluster role (tagsOfEntry e)).map fun e =>
    Text.afterLast '/' e.1

theorem mem_markedIds (h : Inventory s rows) : id ∈ markedIds s cluster role ↔
    ∃ arn tags, (arn, .object tags) ∈ s.subnetTags.entries ∧ EndsIn arn id ∧ CountsFor cluster role tags := by
  unfold markedIds
  constructor
  · intro hid
    obtain ⟨⟨arn, v⟩, he, rfl⟩ := List.mem_map.1 hid
    obtain ⟨he, hcounts⟩ := List.mem_filter.1 he
    obtain ⟨id, tags, hends, rfl⟩ := h.tagged _ he
    have hid : Text.afterLast '/' arn = id := Except.ok.inj hends.subnetOfArn
    exact ⟨arn, tags, he, hid ▸ hends, counts_iff.1 hcounts⟩
  · rintro ⟨arn, tags, he, hends, hmarks⟩
    refine List.mem_map.2 ⟨_, List.mem_filter.2 ⟨he, counts_iff.2 hmarks⟩, ?_⟩
    exact Except.ok.inj hends.subnetOfArn

/-- Looking up what is tagged finds the qualified subnets. -/
theorem any_goesBy_markedIds (h : Inventory s rows) (hrole : IsRole scheme role) (hr : r ∈ rows) :
    (markedIds s cluster role).any r.goesBy = true ↔ Qualified s cluster scheme r := by
  have hname : (r.name.any fun n => decide (n ∈ markedIds s cluster role)) = false := by
    rw [Option.any_eq_false]
    intro n hn
    rw [decide_eq_false_iff_not]
    intro hmem
    obtain ⟨arn, tags, he, hends, -⟩ := (mem_markedIds h).1 hmem
    exact h.named r hr _ he n hends hn
  rw [any_goesBy, hname, Bool.or_false, decide_eq_true_eq, mem_markedIds h]
  constructor
  · rintro ⟨arn, tags, he, hends, hmarks⟩
    exact ⟨role, arn, tags, hrole, he, hends, hmarks⟩
  · rintro ⟨role', arn, tags, hrole', he, hends, hmarks⟩
    obtain rfl := Option.some.inj ((roleKey?_eq_some_iff.2 hrole').symm.trans (roleKey?_eq_some_iff.2 hrole))
    exact ⟨arn, tags, he, hends, hmarks⟩

theorem contains_table_iff (tags : Fields) (role : String) :
    (Table.ofList (tags.map fun f => (Key.text f.1, f.2))).contains (.text role) =
      tags.any fun e => e.1 == role := by
  rw [Bool.eq_iff_iff, Table.contains, Option.isSome_iff_ne_none, Table.get?_ofList, Ne,
    Entries.find?_eq_none_iff]
  simp

/-- What a cloud tells of a cluster's subnets holds the tags that count for a role. -/
theorem clusterSubnets_marked (h : Inventory s rows) (cluster role : String) :
    ∃ tagged, s.clusterSubnets (.text (Identity.clusterKey cluster)) = .ok tagged ∧
      ((tagged.entries.filter fun e => e.2.contains (.text role)).map fun e => e.1.toValue).mapM
        (fun arn => .text <$> subnetOfArn arn) =
          (.ok ((markedIds s cluster role).map .text) : Except Error (List Value)) := by
  let owned := s.subnetTags.entries.filter fun e =>
    (Fields.get (tagsOfEntry e) (Identity.clusterKey cluster)).isOneOf ["owned", "shared"]
  let labelled :=
    owned.map fun e => (Key.text e.1, Table.ofList ((tagsOfEntry e).map fun f => (Key.text f.1, f.2)))
  have hobject : ∀ e ∈ s.subnetTags.entries, e.2 = .object (tagsOfEntry e) := by
    intro e he
    obtain ⟨-, tags, -, htags⟩ := h.tagged e he
    simp [tagsOfEntry, htags, Value.fields?]
  have howned : (s.subnetTags.entries.filterM fun e => Resources.isOfCluster
      (.text (Identity.clusterKey cluster)) e.2) =
      (.ok owned : Except Error _) := by
    refine filterM_ok fun e he => ?_
    rw [hobject e he]
    rfl
  have hlabelled : (owned.mapM fun e => do return (Key.text e.1, ← e.2.table)) =
      (.ok labelled : Except Error _) := by
    rw [mapM_eq_ok_iff, List.forall₂_map_right_iff, List.forall₂_same]
    intro e he
    rw [hobject e (List.mem_filter.1 he).1]
    rfl
  have hdistinct : Entries.Distinct labelled := by
    have hpairwise : Entries.Distinct owned := s.subnetTags.distinct.filter _
    unfold Entries.Distinct
    rw [List.pairwise_map]
    exact hpairwise.imp fun hne => by rwa [Key.text_beq_text]
  refine ⟨.ofList labelled, ?_, ?_⟩
  · unfold Resources.clusterSubnets
    rw [howned]
    show (do return Table.ofList (← owned.mapM fun e =>
      do return (Key.text e.1, ← e.2.table)) : Except Error _) = _
    rw [hlabelled]
    rfl
  · rw [Table.entries_ofList hdistinct, mapM_eq_ok_iff]
    have hmarked : (labelled.filter fun e => e.2.contains (.text role)).map (fun e => e.1.toValue) =
        (s.subnetTags.entries.filter fun e => counts cluster role (tagsOfEntry e)).map
          fun e => .text e.1 := by
      rw [List.filter_map, List.map_map, List.filter_filter]
      congr 1
      refine List.filter_congr fun e _ => ?_
      rw [Function.comp_apply, contains_table_iff, Bool.and_comm]
      rfl
    rw [hmarked, markedIds, List.map_map, List.forall₂_map_left_iff,
      List.forall₂_map_right_iff, List.forall₂_same]
    exact fun e _ => rfl

/-! ## Discovery -/

theorem discovered_of_perm {P : ZonedSubnet → Prop} {p : ZonedSubnet → Bool} {ids : List String}
    (hnodup : (rows.map fun r => r.id).Nodup) (hp : ∀ r ∈ rows, p r = true ↔ P r)
    (hperm : ids.Perm ((firsts [] (rows.filter p)).map fun r => r.id)) (hsorted : ids.Pairwise (· ≤ ·)) :
    Discovered rows P ids := by
  have hfirsts : ∀ id, id ∈ ids ↔ ∃ r, IsFirst rows P r ∧ r.id = id := by
    intro id
    rw [hperm.mem_iff, List.mem_map]
    exact exists_congr fun r => and_congr_left fun _ => mem_firsts_filter hp
  have hsub : (firsts [] (rows.filter p)).Sublist rows := (firsts_sublist [] _).trans List.filter_sublist
  have hids : ids.Nodup := hperm.nodup_iff.2 (hnodup.sublist (hsub.map _))
  refine ⟨(hsorted.and hids).imp fun hab => lt_of_le_of_ne hab.1 hab.2, hfirsts, fun r hr hP => ?_⟩
  obtain ⟨q, hq, hzone⟩ := zone_mem_firsts [] (List.mem_filter.2 ⟨hr, (hp r hr).2 hP⟩) (by simp)
  have hqrows := hsub.subset hq
  have hqP := (mem_firsts_filter hp).1 hq
  refine ⟨q.id, ⟨(hfirsts q.id).2 ⟨q, hqP, rfl⟩, q, hqrows, hqP.1, hzone, rfl⟩, ?_⟩
  rintro id ⟨hid, q', hq', hP', hzone', rfl⟩
  -- an identifier of the result is that of a first subnet, and two of those are not of one zone
  obtain ⟨f, hf, hfid⟩ := (hfirsts q'.id).1 hid
  have hf := (mem_firsts_filter hp).2 hf
  obtain rfl : f = q' := List.inj_on_of_nodup_map hnodup (hsub.subset hf) hq' hfid
  have heq : f = q := List.inj_on_of_nodup_map (nodup_zones_firsts [] _) hf hq (hzone'.trans hzone.symm)
  rw [heq]

/-- With a role for the scheme, the first subnets of all zones that are found by their tags are given in
order, or are too few. -/
theorem run_clusterSubnets (h : Inventory m.resources rows) (hrole : IsRole scheme role) (cluster : String) :
    let found := (firsts [] (rows.filter fun r =>
      (markedIds m.resources cluster role).any r.goesBy)).map fun r => r.id
    ∃ ids : List String, ids.Perm found ∧ ids.Pairwise (· ≤ ·) ∧
      (clusterSubnets (.text cluster) scheme).run Memory.bare m =
        (if found.length < minClusterSubnets then
            .error (.configuration (.fewSubnets (Identity.clusterKey cluster) role (found.map .text)))
          else .ok (ids.map .text), m) := by
  intro found
  obtain ⟨ids, hsorted, hperm, hpairwise⟩ := Value.sorted_texts found
  refine ⟨ids, hperm, hpairwise, ?_⟩
  obtain ⟨tagged, htagged, hids⟩ := clusterSubnets_marked h cluster role
  obtain ⟨vs, hfound, hdescribed⟩ :=
    run_subnetsNamed (fun _ _ hr => hr.subnet) h.described (markedIds m.resources cluster role)
  have hanswer : (Program.answer (.clusterSubnets (.text (Identity.clusterKey cluster)))).run Memory.bare m =
      (.ok tagged, m) := by
    rw [Program.run_answer]
    show m.perform _ = _
    rw [Memory.perform_eq, Resources.perform_clusterSubnets, htagged,
      Resources.recorded_of_reads rfl, List.append_nil]
  have hfirsts : firstOfZones [] vs = .ok (found.map .text) := by
    rw [List.map_map]
    exact firstOfZones_eq hdescribed []
  rw [clusterSubnets_eq, roleKey?_eq_some_iff.2 hrole]
  simp only
  rw [Program.run_lift_bind (show (Value.text cluster).asRest = .ok cluster from rfl),
    Program.run_bind, hanswer]
  simp only
  rw [Program.run_lift_bind hids, Program.run_bind, hfound]
  simp only
  rw [Program.run_lift_bind hfirsts, List.length_map]
  by_cases hlen : found.length < minClusterSubnets
  · rw [if_pos hlen, if_pos hlen]
    rfl
  · rw [if_neg hlen, if_neg hlen, ← hsorted]
    rfl

/-- Discovery leaves all as it is. It is refused just if there is no role for the scheme or all qualified
subnets are of one zone; else it gives the first qualified subnet of each zone. -/
theorem clusterSubnets_spec (h : Inventory m.resources rows) (cluster : String) (scheme : Value) :
    ∃ result, (clusterSubnets (.text cluster) scheme).run Memory.bare m = (result, m) ∧
      ((∃ fault, result = .error (.configuration fault)) ↔
        scheme ≠ .text "internal" ∧ scheme ≠ .text "internet-facing" ∨
          OneZone rows (Qualified m.resources cluster scheme)) ∧
      ((∀ fault, result ≠ .error (.configuration fault)) →
        ∃ ids : List String, result = .ok (ids.map .text) ∧
          Discovered rows (Qualified m.resources cluster scheme) ids) := by
  by_cases hscheme : ∃ role, IsRole scheme role
  · obtain ⟨role, hrole⟩ := hscheme
    have hknown : ¬ (scheme ≠ .text "internal" ∧ scheme ≠ .text "internet-facing") := by
      rw [← not_or, not_not]
      exact exists_isRole_iff.1 ⟨role, hrole⟩
    have hp : ∀ r ∈ rows, (markedIds m.resources cluster role).any r.goesBy = true ↔
        Qualified m.resources cluster scheme r :=
      fun r hr => any_goesBy_markedIds h hrole hr
    obtain ⟨ids, hperm, hsorted, hrun⟩ := run_clusterSubnets h hrole cluster
    refine ⟨_, hrun, ?_, fun hne => ?_⟩
    · rw [or_iff_right hknown, ← length_firsts_lt hp, List.length_map]
      split <;> simp_all
    · split
      · rename_i hlen
        rw [if_pos hlen] at hne
        exact absurd rfl (hne _)
      · exact ⟨ids, rfl, discovered_of_perm h.nodup hp hperm hsorted⟩
  · have hnone : roleKey? scheme = none := Option.eq_none_iff_forall_not_mem.2 fun role hkey =>
      hscheme ⟨role, roleKey?_eq_some_iff.1 hkey⟩
    rw [exists_isRole_iff, not_or] at hscheme
    rw [clusterSubnets_eq, hnone]
    exact ⟨_, rfl, iff_of_true ⟨_, rfl⟩ (.inl hscheme), fun hne => absurd rfl (hne _)⟩

end

/-- The description of a subnet in a zone. -/
def zonedSubnet (id name zone : String) : Value :=
  .object [("SubnetId", .text id), ("AvailabilityZone", .text zone),
    ("Tags", .list [.object [("Key", .text "Name"), ("Value", .text name)]])]

theorem describes_zonedSubnet (id zone : String) {name : String} (h : name ≠ "") :
    ZonedSubnet.Describes ⟨⟨id, some name⟩, some zone⟩ (zonedSubnet id name zone) :=
  ⟨⟨rfl, _, rfl, h, rfl⟩, rfl⟩

/-- Three subnets in two zones. -/
def threeRows : List ZonedSubnet :=
  [⟨⟨"subnet-c", some "left"⟩, some "us-east-1b"⟩, ⟨⟨"subnet-a", some "right"⟩, some "us-east-1a"⟩,
    ⟨⟨"subnet-b", some "spare"⟩, some "us-east-1a"⟩]

/-- Tags of an internal subnet of the cluster `main`. -/
def internalTags (use : String) : Fields :=
  [("kubernetes.io/cluster/main", .text use), ("kubernetes.io/role/internal-elb", .text "1")]

/-- The three subnets, tagged for the cluster. -/
def threeSubnets : Memory where
  resources := {
    subnets := [zonedSubnet "subnet-c" "left" "us-east-1b", zonedSubnet "subnet-a" "right" "us-east-1a",
      zonedSubnet "subnet-b" "spare" "us-east-1a"]
    subnetTags := .ofList [("arn:subnet/subnet-c", .object (internalTags "owned")),
      ("arn:subnet/subnet-a", .object (internalTags "shared")),
      ("arn:subnet/subnet-b", .object (internalTags "owned"))] }

theorem endsIn_subnet (id : String) (h : '/' ∉ id.toList) :
    EndsIn ("arn:subnet" ++ "/" ++ id) id := ⟨_, rfl, h⟩

theorem inventory_threeSubnets : Inventory threeSubnets.resources threeRows := by
  have hentry : ∀ e ∈ threeSubnets.resources.subnetTags.entries,
      ∃ id ∈ ["subnet-c", "subnet-a", "subnet-b"], EndsIn e.1 id ∧ ∃ tags, e.2 = .object tags := by
    intro e he
    rcases List.mem_cons.1 he with rfl | he
    · exact ⟨"subnet-c", by simp, endsIn_subnet "subnet-c" (by decide), _, rfl⟩
    rcases List.mem_cons.1 he with rfl | he
    · exact ⟨"subnet-a", by simp, endsIn_subnet "subnet-a" (by decide), _, rfl⟩
    obtain rfl := List.mem_singleton.1 he
    exact ⟨"subnet-b", by simp, endsIn_subnet "subnet-b" (by decide), _, rfl⟩
  refine ⟨?_, by decide, fun e he => ?_, fun r hr e he id hends hname => ?_⟩
  · exact .cons (describes_zonedSubnet _ _ (by decide)) (.cons (describes_zonedSubnet _ _ (by decide))
      (.cons (describes_zonedSubnet _ _ (by decide)) .nil))
  · obtain ⟨id, -, hends, tags, htags⟩ := hentry e he
    exact ⟨id, tags, hends, htags⟩
  · obtain ⟨id', hid', hends', -⟩ := hentry e he
    obtain rfl := hends.unique hends'
    exact (by decide : ∀ r ∈ threeRows, ∀ id ∈ ["subnet-c", "subnet-a", "subnet-b"], r.name ≠ some id)
      r hr id hid' hname

theorem first_of_two_zones_discovered :
    ∃ ids : List String, (clusterSubnets (.text "main") (.text "internal")).run Memory.bare threeSubnets =
        (.ok (ids.map .text), threeSubnets) ∧
      Discovered threeRows (Qualified threeSubnets.resources "main" (.text "internal")) ids := by
  obtain ⟨result, hrun, hiff, hok⟩ := clusterSubnets_spec inventory_threeSubnets "main" (.text "internal")
  have hmarks : ∀ use ∈ ["owned", "shared"],
      CountsFor "main" "kubernetes.io/role/internal-elb" (internalTags use) := by
    intro use huse
    refine ⟨?_, ("kubernetes.io/role/internal-elb", .text "1"), by simp [internalTags], rfl⟩
    exact (by decide : ∀ use ∈ ["owned", "shared"],
      (Fields.get (internalTags use) (Identity.clusterKey "main")).isOneOf
        ["owned", "shared"] = true) use huse
  have hqualified : ∀ id ∈ ["subnet-c", "subnet-a"], ∀ name zone,
      Qualified threeSubnets.resources "main" (.text "internal") ⟨⟨id, name⟩, zone⟩ := by
    intro id hid name zone
    rcases List.mem_cons.1 hid with rfl | hid
    · exact ⟨_, _, _, .internal, List.mem_cons_self, endsIn_subnet "subnet-c" (by decide),
        hmarks "owned" (by simp)⟩
    · obtain rfl := List.mem_singleton.1 hid
      exact ⟨_, _, _, .internal, List.mem_cons_of_mem _ List.mem_cons_self,
        endsIn_subnet "subnet-a" (by decide), hmarks "shared" (by simp)⟩
  have hne : ∀ fault, result ≠ .error (.configuration fault) := by
    intro fault hfault
    rcases hiff.1 ⟨fault, hfault⟩ with hscheme | hone
    · exact hscheme.1 rfl
    · have hzone := hone ⟨⟨"subnet-c", some "left"⟩, some "us-east-1b"⟩ (by simp [threeRows])
        ⟨⟨"subnet-a", some "right"⟩, some "us-east-1a"⟩ (by simp [threeRows]) (hqualified _ (by simp) _ _)
        (hqualified _ (by simp) _ _)
      exact absurd hzone (by decide)
  obtain ⟨ids, rfl, hdiscovered⟩ := hok hne
  exact ⟨ids, hrun, hdiscovered⟩

end Converge

end Balancer
