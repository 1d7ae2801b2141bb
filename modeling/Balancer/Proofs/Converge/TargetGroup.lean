import Balancer.Proofs.Converge.Targets

/-!
# Converging one target group

* `OnlyAt k s u` : of what belongs to target groups, only what belongs to one ARN differs;
* `HealthMet tg check` : a described target group has the settings of a health check;
* `GroupPlan` : the name, the health check and the tags of the target group of a backend (`planGroup`);
* `GroupReady` : the target group of a plan is there and nothing of it has to be changed.
  `convergeTargetGroup` brings that about (`yields_convergeTargetGroup`), rests where it holds
  (`rests_convergeTargetGroup`) and can be done again from any state that it visits
  (`resumes_convergeTargetGroup`).
-/

namespace Balancer

set_option autoImplicit false

open Resources (IsPlain modifiedTg newTg modifiableFields tgArn)

/-! ## Changes at one ARN -/

/-- Only what belongs to the target group of one ARN differs. -/
structure OnlyAt (k : Key) (s u : Resources) : Prop where
  subnets : u.subnets = s.subnets
  subnetTags : u.subnetTags = s.subnetTags
  loadBalancers : u.loadBalancers = s.loadBalancers
  lbAttributes : u.lbAttributes = s.lbAttributes
  listeners : u.listeners = s.listeners
  targetGroups : ∀ k', (k == k') = false → u.targetGroups.get? k' = s.targetGroups.get? k'
  tgAttributes : ∀ k', (k == k') = false → u.tgAttributes.get? k' = s.tgAttributes.get? k'
  targets : ∀ k', (k == k') = false → u.targets.get? k' = s.targets.get? k'
  tags : ∀ k', (k == k') = false → u.tags.get? k' = s.tags.get? k'

namespace OnlyAt

variable {k : Key} {s t u : Resources}

theorem refl (k : Key) (s : Resources) : OnlyAt k s s :=
  ⟨rfl, rfl, rfl, rfl, rfl, fun _ _ => rfl, fun _ _ => rfl, fun _ _ => rfl, fun _ _ => rfl⟩

theorem trans (h : OnlyAt k s t) (h' : OnlyAt k t u) : OnlyAt k s u where
  subnets := h'.subnets.trans h.subnets
  subnetTags := h'.subnetTags.trans h.subnetTags
  loadBalancers := h'.loadBalancers.trans h.loadBalancers
  lbAttributes := h'.lbAttributes.trans h.lbAttributes
  listeners := h'.listeners.trans h.listeners
  targetGroups k' hk := (h'.targetGroups k' hk).trans (h.targetGroups k' hk)
  tgAttributes k' hk := (h'.tgAttributes k' hk).trans (h.tgAttributes k' hk)
  targets k' hk := (h'.targets k' hk).trans (h.targets k' hk)
  tags k' hk := (h'.tags k' hk).trans (h.tags k' hk)

theorem addTg (k : Key) (s : Resources) (tg : Fields) (tags : Labels) : OnlyAt k s (s.addTg k tg tags) :=
  ⟨rfl, rfl, rfl, rfl, rfl, fun _ h => Table.get?_insert_of_ne _ _ h,
    fun _ h => Table.get?_insert_of_ne _ _ h,
    fun _ h => Table.get?_insert_of_ne _ _ h, fun _ h => Table.get?_insert_of_ne _ _ h⟩

theorem putTg (k : Key) (s : Resources) (tg : Fields) : OnlyAt k s (s.putTg k tg) :=
  ⟨rfl, rfl, rfl, rfl, rfl, fun _ h => Table.get?_insert_of_ne _ _ h, fun _ _ => rfl,
    fun _ _ => rfl, fun _ _ => rfl⟩

theorem putTgAttributes (k : Key) (s : Resources) (l : Labels) : OnlyAt k s (s.putTgAttributes k l) :=
  ⟨rfl, rfl, rfl, rfl, rfl, fun _ _ => rfl, fun _ h => Table.get?_insert_of_ne _ _ h,
    fun _ _ => rfl, fun _ _ => rfl⟩

theorem putTargets (k : Key) (s : Resources) (ts : List Value) : OnlyAt k s (s.putTargets k ts) :=
  ⟨rfl, rfl, rfl, rfl, rfl, fun _ _ => rfl, fun _ _ => rfl,
    fun _ h => Table.get?_insert_of_ne _ _ h, fun _ _ => rfl⟩

theorem putTags (k : Key) (s : Resources) (l : Labels) : OnlyAt k s (s.putTags k l) :=
  ⟨rfl, rfl, rfl, rfl, rfl, fun _ _ => rfl, fun _ _ => rfl, fun _ _ => rfl,
    fun _ h => Table.get?_insert_of_ne _ _ h⟩

end OnlyAt

namespace Converge

open Cluster Routing

/-! ## Health checks -/

/-- A setting that equals itself, as it is compared. -/
def DefiniteSetting (f : String × Value) : Prop :=
  if f.1 = "Matcher" then ∀ code, f.2.item "HttpCode" = .ok code →
    code.same code = true else f.2.same f.2 = true

/-- The settings of a health check: modifiable fields, each once, and a matcher that has its codes. -/
structure IsCheck (check : Fields) : Prop where
  distinct : Entries.Distinct check
  modifiable : ∀ f ∈ check, f.1 ∈ modifiableFields
  matcher : ∀ f ∈ check, f.1 = "Matcher" → ∃ code, f.2 = .object [("HttpCode", code)]

/-- A described target group has the settings of a health check, or they are as they were written. -/
def HealthMet (tg check : Fields) : Prop :=
  differs (.object tg) check = .ok false ∨ ∀ f ∈ check, Entries.find? f.1 tg = some f.2

theorem isCheck_healthCheck (settings : ServiceSettings) (port : Value) :
    IsCheck (healthCheck settings port) := by
  unfold healthCheck
  dsimp only
  split
  · refine ⟨by simp [Entries.Distinct], by simp [modifiableFields], ?_⟩
    simp
  · refine ⟨by simp [Entries.Distinct], by simp [modifiableFields], ?_⟩
    simp

section

variable {tg check params : Fields}

/-- Settings that are as they were written can be compared, and are found equal if they equal themselves. -/
theorem differs_of_written (hc : IsCheck check) (h : ∀ f ∈ check, Entries.find? f.1 tg = some f.2) :
    ∃ b, differs (.object tg) check = .ok b ∧ ((∀ f ∈ check, DefiniteSetting f) → b = false) := by
  have hsetting : ∀ f ∈ check, ∃ b, settingDiffers (.object tg) f.1 f.2 = .ok b ∧
      (DefiniteSetting f → b = false) := by
    intro f hf
    unfold settingDiffers DefiniteSetting
    by_cases hm : f.1 = "Matcher"
    · obtain ⟨code, hcode⟩ := hc.matcher f hf hm
      have hget := h f hf
      rw [hm, hcode] at hget
      refine ⟨!code.same code, ?_, fun hd => ?_⟩
      · simp [hm, hcode, part, Fields.get, hget, Value.orElse, Value.holds, bind,
          Except.bind, pure, Except.pure, Value.get, Value.fieldsFor, Value.item, Fields.item, Entries.find?]
      · rw [if_pos hm] at hd
        rw [hd code (by rw [hcode]; rfl)]
        rfl
    · refine ⟨!f.2.same f.2, ?_, fun hd => ?_⟩
      · simp [hm, Fields.get, h f hf, bind, Except.bind, pure, Except.pure]
      · rw [if_neg hm] at hd
        rw [hd]
        rfl
  induction check with
  | nil => exact ⟨false, rfl, fun _ => rfl⟩
  | cons f check ih =>
    obtain ⟨hf, hfs⟩ := List.forall_mem_cons.1 hsetting
    have hc' : IsCheck check :=
      ⟨(List.pairwise_cons.1 hc.distinct).2, fun g hg => hc.modifiable g (by simp [hg]),
      fun g hg => hc.matcher g (by simp [hg])⟩
    obtain ⟨b, hb, hq⟩ := hf
    obtain ⟨b', hb', hq'⟩ := ih hc' (fun g hg => h g (by simp [hg])) hfs
    unfold differs
    cases b with
    | false =>
      refine ⟨b', by simp [hb, hb', bind, Except.bind], fun hd => hq' fun g hg => hd g (by simp [hg])⟩
    | true =>
      exact ⟨true, by simp [hb, bind, Except.bind, pure,
        Except.pure], fun hd => absurd (hq (hd f (by simp))) (by simp)⟩

theorem find?_modifiedTg (tg params : Fields) (k : String) :
    Entries.find? k (modifiedTg tg params) =
      if k ∈ modifiableFields then (Entries.find? k params).or
        (Entries.find? k tg) else Entries.find? k tg := by
  unfold modifiedTg
  generalize modifiableFields = names
  induction names generalizing tg with
  | nil => rfl
  | cons n names ih =>
    rw [List.foldl_cons, ih]
    cases hp : Entries.find? n params with
    | none => by_cases hn : k = n <;> by_cases hm : k ∈ names <;> simp [hn, hm, hp]
    | some v =>
      simp only [Entries.find?_put, List.mem_cons]
      by_cases hn : n = k
      · subst hn
        by_cases hm : n ∈ names <;> simp [hm, hp]
      · have : ¬ k = n := fun h => hn h.symm
        simp [hn, this]

/-- Modified settings are as they were written. -/
theorem written_modifiedTg {arn : Value} (hc : IsCheck check) :
    ∀ f ∈ check, Entries.find? f.1 (modifiedTg tg (("TargetGroupArn", arn) :: check)) = some f.2 := by
  intro f hf
  have hm := hc.modifiable f hf
  have hne : ("TargetGroupArn" == f.1) = false := by
    rw [beq_eq_false_iff_ne]
    rintro hk
    rw [← hk] at hm
    exact absurd hm (by decide)
  rw [find?_modifiedTg, if_pos hm, Entries.find?, hne, if_neg (by simp),
    Entries.find?_self_of_mem hc.distinct hf]
  rfl

/-- Settings that are as they were written stay so when they are written again. -/
theorem modifiedTg_of_written {arn : Value} (h : ∀ f ∈ check, Entries.find? f.1 tg = some f.2) :
    modifiedTg tg (("TargetGroupArn", arn) :: check) = tg := by
  refine List.foldlRecOn (motive := fun u => u = tg) modifiableFields _ rfl fun u hu n hn => ?_
  have hne : ("TargetGroupArn" == n) = false := by
    rw [beq_eq_false_iff_ne]
    rintro rfl
    exact absurd hn (by decide)
  rw [hu, Entries.find?, hne, if_neg (by simp)]
  cases hf : Entries.find? n check with
  | none => rfl
  | some v =>
    obtain ⟨n', hn', hm⟩ := Entries.mem_of_find? hf
    obtain rfl := eq_of_beq hn'
    exact Entries.put_of_find? (h _ hm)

theorem HealthMet.modifiedTg {arn : Value} (hc : IsCheck check) :
    HealthMet (modifiedTg tg (("TargetGroupArn", arn) :: check)) check := .inr (written_modifiedTg hc)

/-- What is no setting of the health check is kept. -/
theorem get_modifiedTg {k : String} (hk : k ∉ modifiableFields) (tg params : Fields) :
    Fields.get (modifiedTg tg params) k = Fields.get tg k := by
  rw [Fields.get, find?_modifiedTg, if_neg hk]
  rfl

end

/-! ## The target group of a name -/

/-- There is a target group of a name under a key. -/
def GroupNamed (n : String) (k : Key) (u : Resources) : Prop :=
  ∃ tg, u.targetGroups.get? k = some tg ∧ Fields.get tg "TargetGroupName" = .text n

theorem GroupNamed.unique {n : String} {k k' : Key} {u : Resources} (hu : u.WellFormed) (h : GroupNamed n k u)
    (h' : GroupNamed n k' u) : k = k' := by
  obtain ⟨tg, hk, hn⟩ := h
  obtain ⟨tg', hk', hn'⟩ := h'
  exact hu.tgName hk hk' hn hn'

/-- The target group of a name is there, with the settings of a health check. -/
def GroupThere (n : String) (check : Fields) (arn : String) (u : Resources) : Prop :=
  ∃ tg, u.targetGroups.get? (.text arn) = some tg ∧
    Fields.get tg "TargetGroupName" = .text n ∧ HealthMet tg check

section

variable {s u : Resources} {i : Inputs} {n arn : String} {targetType protocol : Value} {check : Fields}
  {tags : Table String Value}

/-- Tags that are given to the cloud are read back as they are. -/
theorem readTags_tagList (tags : Table String Value) :
    ∃ vs, tagList tags.toObject = .ok vs ∧ readTags (.list vs) = .ok (labels tags.sorted) := by
  refine ⟨tags.sorted.map fun e => .object [("Key", .text e.1), ("Value", e.2)], rfl, ?_⟩
  have helements :
      (Value.list (tags.sorted.map fun e => .object [("Key", .text e.1), ("Value", e.2)])).elementsIfAny =
      .ok (tags.sorted.map fun e => .object [("Key", .text e.1), ("Value", e.2)]) := by
    unfold Value.elementsIfAny
    cases tags.sorted <;> rfl
  have hread : ((tags.sorted.map fun e => Value.object [("Key", .text e.1), ("Value", e.2)]).mapM readTag) =
      .ok (tags.sorted.map fun e => (.text e.1, e.2)) := by
    rw [mapM_eq_ok_iff, List.forall₂_map_left_iff, List.forall₂_map_right_iff, List.forall₂_same]
    exact fun e _ => rfl
  simp only [readTags, helements, bind, Except.bind, hread]
  rfl

theorem find?_newTg {params : Fields} {name : Value} {k : String} (hk : k ∈ modifiableFields) :
    Entries.find? k (newTg params name arn) = Entries.find? k params := by
  have hne : k ≠ "TargetGroupName" ∧ k ≠ "TargetGroupArn" ∧ k ≠ "Tags" := by
    revert k
    decide
  unfold newTg
  rw [Entries.find?_put, Entries.find?_put, Entries.find?_drop, if_neg, if_neg, if_neg]
  · simpa using hne.2.2.symm
  · simpa using hne.2.1.symm
  · simpa using hne.1.symm

theorem find?_targetGroupParams {vs : List Value} {k : String} (hk : k ∈ modifiableFields) :
    Entries.find? k (targetGroupParams i n targetType protocol check vs) = Entries.find? k check := by
  have hne : k ≠ "Name" ∧ k ≠ "Protocol" ∧ k ≠ "Port" ∧ k ≠ "VpcId" ∧ k ≠ "TargetType" ∧ k ≠ "Tags" := by
    revert k
    decide
  unfold targetGroupParams
  rw [Entries.find?_append]
  simp [Entries.find?, hne.1.symm, hne.2.1.symm, hne.2.2.1.symm, hne.2.2.2.1.symm, hne.2.2.2.2.1.symm,
    hne.2.2.2.2.2.symm]

/-- A new target group is there. -/
theorem does_createTargetGroup (i : Inputs) (targetType protocol : Value)
    (tags : Table String Value) (hs : s.WellFormed) (hc : IsCheck check)
    (hnew : ∀ k tg, s.targetGroups.get? k = some tg → Fields.get tg "TargetGroupName" ≠ .text n) :
    ∃ arn tg t, (createTargetGroup i n targetType protocol check tags.toObject).Does s (.object tg) t ∧
      Fields.get tg "TargetGroupArn" = .text arn ∧ GroupThere n check arn t ∧ t.WellFormed ∧
      OnlyAt (.text arn) s t ∧
      s.targetGroups.get? (.text arn) = none ∧ t.tagsOf (.text arn) = labels tags.sorted := by
  obtain ⟨vs, hvs, hread⟩ := readTags_tagList tags
  have harn : Resources.Numbered s.nextId (tgArn n s.nextId) := Resources.numbered_tgArn n s.nextId
  have hname : Fields.item (targetGroupParams i n targetType protocol check vs) "Name" = .ok (.text n) := rfl
  have hstep := Resources.perform_createTg s (targetGroupParams i n targetType protocol check vs) hname hread
  rw [Value.shown_text] at hstep
  have hgetArn : Fields.get (newTg (targetGroupParams i n targetType protocol check vs)
      (.text n) (tgArn n s.nextId))
      "TargetGroupArn" = .text (tgArn n s.nextId) := by
    simp [newTg, Fields.get_put]
  have hgetName : Fields.get (newTg (targetGroupParams i n targetType protocol check vs)
      (.text n) (tgArn n s.nextId))
      "TargetGroupName" = .text n := by
    simp [newTg, Fields.get_put]
  refine ⟨tgArn n s.nextId, _, s.addTg _ _ (labels tags.sorted), ?_, hgetArn,
    ⟨_, Table.get?_insert_self _ _ _, hgetName, .inr fun f hf => ?_⟩, ?_, OnlyAt.addTg _ _ _ _,
    hs.tgFresh (Nat.le_refl _) harn, ?_⟩
  · unfold createTargetGroup
    refine (Program.does_lift hvs s).before ((Program.does_answer hstep).after ?_)
    refine (Program.does_lift (Fields.item_of_get_text hgetArn) _).before ?_
    exact (Program.does_info _ _ _).before (Program.does_pure _ _)
  · have hm := hc.modifiable f hf
    rw [find?_newTg hm, find?_targetGroupParams hm, Entries.find?_self_of_mem hc.distinct hf]
  · refine hs.addTg harn hgetArn fun k tg name hk hname => ?_
    rw [hgetName]
    rintro ⟨⟩
    exact hnew k tg hk hname
  · exact congrArg (Option.getD · ∅) (Table.get?_insert_self _ _ _)

/-- What `ensureTargetGroup` does: it fails before it has changed anything, or the target group is
there after one step. -/
theorem ensureTargetGroup_cases (hs : s.WellFormed) (hc : IsCheck check) :
    (ensureTargetGroup i n targetType protocol check tags.toObject).Fails s ∨
      ∃ arn tg t, (ensureTargetGroup i n targetType protocol check tags.toObject).Does s (.object tg) t ∧
        Fields.get tg "TargetGroupArn" = .text arn ∧ GroupThere n check arn t ∧ t.WellFormed ∧
        OnlyAt (.text arn) s t ∧
        (∀ tg', s.targetGroups.get? (.text arn) = some tg' → Fields.get tg' "TargetGroupName" = .text n) ∧
        (t.tagsOf (.text arn) = labels tags.sorted ∨
          t.tags = s.tags ∧ ∃ tg', s.targetGroups.get? (.text arn) = some tg') := by
  unfold ensureTargetGroup
  have hread := Program.does_answer (Resources.perform_targetGroupNamed s (.text n))
  rcases Resources.named_cases "TargetGroupName" (.text n) s.targetGroups with
    hnone | ⟨k, tg, hk, hn, hnamed⟩
  · rw [hnone] at hread
    obtain ⟨arn, tg, t, hdoes, harn, hthere, ht, hat, hfresh, htags⟩ :=
      does_createTargetGroup i targetType protocol tags hs hc (Resources.named_eq_null_iff.1 hnone)
    refine .inr ⟨arn, tg, t, hread.before hdoes, harn, hthere, ht, hat, fun tg' h => ?_, .inl htags⟩
    rw [hfresh] at h
    cases h
  · rw [hnamed] at hread
    obtain ⟨arn, rfl, harn⟩ := hs.tgOwn hk
    have hn := (Value.same_text_iff _ _).1 hn
    have hname : ∀ tg', s.targetGroups.get? (.text arn) = some tg' →
        Fields.get tg' "TargetGroupName" = .text n := by
      intro tg' h
      rw [hk] at h
      cases h
      exact hn
    cases hd : differs (.object tg) check with
    | error e => exact .inl (hread.fails_bind ((Program.fails_lift hd s).bind _))
    | ok b =>
      right
      cases b with
      | false =>
        refine ⟨arn, tg, s, hread.before ?_, harn, ⟨tg, hk, hn, .inl hd⟩, hs, OnlyAt.refl _ s, hname,
          .inr ⟨rfl, tg, hk⟩⟩
        exact (Program.does_lift hd s).before (Program.does_pure _ s)
      | true =>
        have hstep := Resources.perform_modifyTg s arn (("TargetGroupArn", .text arn) :: check) rfl hk
        have harn' : Fields.get (modifiedTg tg (("TargetGroupArn", .text arn) :: check))
            "TargetGroupArn" = .text arn := by
          rw [get_modifiedTg (by decide), harn]
        have hn' : Fields.get (modifiedTg tg (("TargetGroupArn", .text arn) :: check))
            "TargetGroupName" = .text n := by
          rw [get_modifiedTg (by decide), hn]
        refine ⟨arn, _, _, hread.before ?_, harn',
          ⟨_, Table.get?_insert_self _ _ _, hn', HealthMet.modifiedTg hc⟩, ?_,
          OnlyAt.putTg _ s _, hname, .inr ⟨rfl, tg, hk⟩⟩
        · refine (Program.does_lift hd s).before
            ((Program.does_lift (Fields.item_of_get_text harn) s).before ?_)
          exact (Program.does_answer hstep).after ((Program.does_info _ _ _).before (Program.does_pure _ _))
        · refine hs.putTg hk fun k hk => ?_
          rcases List.mem_cons.1 hk with rfl | hk
          · exact get_modifiedTg (by decide) _ _
          · rw [List.mem_singleton.1 hk]
            exact get_modifiedTg (by decide) _ _

/-- Where the target group is there, nothing more is done to it. -/
theorem rests_ensureTargetGroup (hu : u.WellFormed) (hc : IsCheck check) (h : GroupThere n check arn u) :
    (ensureTargetGroup i n targetType protocol check tags.toObject).Rests (∀ f ∈ check, DefiniteSetting f)
      (fun g => g.item "TargetGroupArn") u (.ok (.text arn)) := by
  obtain ⟨tg, hk, hn, hmet⟩ := h
  obtain ⟨arn', harn', harn⟩ := hu.tgOwn hk
  cases harn'
  unfold ensureTargetGroup
  refine Program.Rests.bind (v := id)
    (Program.Rests.of_ends (a := .object tg) (Program.ends_answer.2 ⟨?_, rfl⟩)) ?_
  · rw [Resources.perform_targetGroupNamed, hu.tgNamed hk hn]
  rintro _ rfl
  have hquiet : differs (.object tg) check = .ok false →
      (modifyTargetGroup n (.object tg) check).Ends u (.object tg) [] u := fun hd =>
    Program.ends_lift_bind.2 ⟨false, hd, Program.ends_pure.2 ⟨rfl, rfl, rfl⟩⟩
  rcases hmet with hd | hw
  · exact ⟨_, [], hquiet hd, Fields.item_of_get_text harn, fun _ => rfl⟩
  · obtain ⟨b, hd, hq⟩ := differs_of_written hc hw
    cases b with
    | false => exact ⟨_, [], hquiet hd, Fields.item_of_get_text harn, fun _ => rfl⟩
    | true =>
      have hstep := Resources.perform_modifyTg u arn (("TargetGroupArn", .text arn) :: check) rfl hk
      rw [modifiedTg_of_written hw, Resources.putTg_of_get? hk] at hstep
      have hdoes : (modifyTargetGroup n (.object tg) check).Does u (.object tg) u := by
        refine (Program.does_lift hd u).before
          ((Program.does_lift (Fields.item_of_get_text harn) u).before ?_)
        exact (Program.does_answer hstep).before ((Program.does_info _ _ u).before (Program.does_pure _ u))
      obtain ⟨⟨rs, he⟩, -⟩ := hdoes
      exact ⟨_, rs, he, Fields.item_of_get_text harn, fun h => nomatch hq h⟩

end

/-! ## What belongs to a target group -/

theorem OnlyAt.of_tagsAt {k : Key} {s u : Resources} (h : TagsAt k s u) : OnlyAt k s u := by
  obtain ⟨⟨l, rfl⟩, hl⟩ := h
  exact ⟨rfl, rfl, rfl, rfl, rfl, fun _ _ => rfl, fun _ _ => rfl, fun _ _ => rfl, hl⟩

/-- The tags, the attributes and the targets of a target group are as they should be. -/
structure Furnished (tags attributes : Fields) (wanted : List (Key × Key)) (arn : String)
    (u : Resources) : Prop where
  tags : Settled (u.tagsOf (.text arn)) tags
  attributes : Meets (u.tgAttributesOf (.text arn)) attributes
  targets : TargetsMet (u.targetsOf (.text arn)) wanted

/-- Converges the tags, the attributes and the targets of a target group. -/
def furnish (store : Store) (service : Value) (settings : ServiceSettings) (b : Backend)
    (tags : Table String Value) (arn : Value) : Program TargetGroup := do
  let _ ← convergeTags arn tags.toObject
  let _ ← convergeTgAttributes arn settings.targetGroup.attributes.toTextObject
  let targets ← resolveTargets store service b settings.targetGroup.targetType
  let _ ← convergeTargets arn (targetList targets)
  return ⟨arn, settings.targetGroup.targetType, targets⟩

/-- The fields of a table of texts. -/
def textFields (t : Table String String) : Fields := t.entries.map fun e => (e.1, .text e.2)

theorem toTextObject_eq (t : Table String String) : t.toTextObject = .object (textFields t) := rfl

theorem distinct_textFields (t : Table String String) : Entries.Distinct (textFields t) :=
  List.pairwise_map.2 t.distinct

theorem definite_textFields (t : Table String String) : Definite (textFields t) := by
  intro e he
  obtain ⟨d, -, rfl⟩ := List.mem_map.1 he
  exact Value.same_self_text d.2

section

variable {store : Store} {service : Value} {settings : ServiceSettings} {b : Backend}
  {tags : Table String Value} {arn : String} {s t u : Resources}
  {wanted : List (Key × Key)} {ts : List Target}

theorem tgAttributed_eq (s : Resources) (arn : String) (desired : Fields) :
    tgAttributed s arn desired = s ∨ ∃ l, tgAttributed s arn desired = s.putTgAttributes (.text arn) l := by
  unfold tgAttributed
  split
  · exact .inl rfl
  · exact .inr ⟨_, rfl⟩

theorem wellFormed_tgAttributed (hs : s.WellFormed) (arn : String) (desired : Fields) :
    (tgAttributed s arn desired).WellFormed := by
  rcases tgAttributed_eq s arn desired with h | ⟨l, h⟩
  · rwa [h]
  · rw [h]
    exact hs.putTgAttributes _ l

/-- What `convergeTargets` visits differs in the targets of the ARN only. -/
theorem always_convergeTargets (hs : s.WellFormed) (arn : String) (ts : List Target) :
    (convergeTargets (.text arn) (targetList ts)).Always (fun u => u.WellFormed ∧ OnlyAt (.text arn) s u ∧
      u.targetGroups = s.targetGroups ∧ u.tags = s.tags ∧ u.tgAttributes = s.tgAttributes) s := by
  have hplain := hs.plain_targetsOf (.text arn)
  have hput : ∀ (t : Resources) (vs : List Value), t.WellFormed → OnlyAt (.text arn) s t →
      t.targetGroups = s.targetGroups → t.tags = s.tags → t.tgAttributes = s.tgAttributes →
      (∀ x ∈ vs, IsPlain x) →
      (t.putTargets (.text arn) vs).WellFormed ∧ OnlyAt (.text arn) s (t.putTargets (.text arn) vs) ∧
        (t.putTargets (.text arn) vs).targetGroups = s.targetGroups ∧
        (t.putTargets (.text arn) vs).tags = s.tags ∧
        (t.putTargets (.text arn) vs).tgAttributes = s.tgAttributes :=
    fun t vs ht hat hg htags ha hvs =>
      ⟨ht.putTargets hvs, hat.trans (OnlyAt.putTargets _ t vs), hg, htags, ha⟩
  intro u hu
  rcases visits_convergeTargets hplain hu with rfl | ⟨wanted, ks, new, gone, hw, hplan, hu⟩
  · exact ⟨hs, OnlyAt.refl _ _, rfl, rfl, rfl⟩
  have hreg : (registered s arn new).WellFormed ∧ OnlyAt (.text arn) s (registered s arn new) ∧
      (registered s arn new).targetGroups = s.targetGroups ∧ (registered s arn new).tags = s.tags ∧
      (registered s arn new).tgAttributes = s.tgAttributes := by
    have hd := hplan.registered_eq.1
    unfold registered at hd ⊢
    split
    · exact ⟨hs, OnlyAt.refl _ _, rfl, rfl, rfl⟩
    · rename_i hne
      refine hput s _ hs (OnlyAt.refl _ _) rfl rfl rfl fun x hx => hd x ?_
      simpa [hne, Resources.targetsOf] using hx
  rcases hu with rfl | rfl
  · exact hreg
  · obtain ⟨h, hat, hg, htags, ha⟩ := hreg
    unfold deregistered
    split
    · exact ⟨h, hat, hg, htags, ha⟩
    · refine hput _ _ h hat hg htags ha fun x hx => hplan.registered_eq.1 x ?_
      exact (List.mem_filter.1 hx).1

/-- The part of `furnish` after the tags. -/
def furnishRest (store : Store) (service : Value) (settings : ServiceSettings) (b : Backend) (arn : Value) :
    Program TargetGroup := do
  let _ ← convergeTgAttributes arn settings.targetGroup.attributes.toTextObject
  let targets ← resolveTargets store service b settings.targetGroup.targetType
  let _ ← convergeTargets arn (targetList targets)
  return ⟨arn, settings.targetGroup.targetType, targets⟩

theorem always_furnishRest (hs : s.WellFormed) (arn : String) :
    (furnishRest store service settings b (.text arn)).Always
      (fun u => u.WellFormed ∧ OnlyAt (.text arn) s u ∧
      u.targetGroups = s.targetGroups ∧ u.tags = s.tags) s := by
  have hattr := does_convergeTgAttributes s arn (textFields settings.targetGroup.attributes)
  have hmid : (tgAttributed s arn (textFields settings.targetGroup.attributes)).WellFormed ∧
      OnlyAt (.text arn) s (tgAttributed s arn (textFields settings.targetGroup.attributes)) ∧
      (tgAttributed s arn (textFields settings.targetGroup.attributes)).targetGroups = s.targetGroups ∧
      (tgAttributed s arn (textFields settings.targetGroup.attributes)).tags = s.tags := by
    refine ⟨wellFormed_tgAttributed hs arn _, ?_⟩
    rcases tgAttributed_eq s arn (textFields settings.targetGroup.attributes) with h | ⟨l, h⟩
    · rw [h]
      exact ⟨OnlyAt.refl _ s, rfl, rfl⟩
    · rw [h]
      exact ⟨OnlyAt.putTgAttributes _ s l, rfl, rfl⟩
  intro u hu
  rcases hattr.visits_bind hu with rfl | hu
  · exact ⟨hs, OnlyAt.refl _ _, rfl, rfl⟩
  rcases Program.visits_lift_bind.1 hu with rfl | ⟨ts, -, hu⟩
  · exact hmid
  obtain ⟨hwf, hat, hg, ht⟩ := hmid
  have htargets := always_convergeTargets hwf arn ts
  have htail := htargets.bind
    (f := fun _ => pure (TargetGroup.mk (.text arn) settings.targetGroup.targetType ts))
    fun _ t hy u hu => by
      rw [Program.visits_pure.1 hu]
      exact htargets.yields hy
  obtain ⟨hwf', hat', hg', ht', -⟩ := htail u hu
  exact ⟨hwf', hat.trans hat', hg'.trans hg, ht'.trans ht⟩

theorem yields_furnish {g : TargetGroup} (hs : s.WellFormed)
    (h : (furnish store service settings b tags (.text arn)).Yields s g t) :
    ∃ ts wanted, resolveTargets store service b settings.targetGroup.targetType = .ok ts ∧
      targetKeys (ts.map Target.toValue) = .ok wanted ∧ g = ⟨.text arn, settings.targetGroup.targetType, ts⟩ ∧
      Furnished tags.entries (textFields settings.targetGroup.attributes) wanted arn t := by
  obtain ⟨_, t₁, h₁, h⟩ := Program.yields_bind.1 h
  obtain ⟨hr, rfl, -⟩ := (yields_convergeTags tags.distinct).1 h₁
  have hwf : (untagged (tagged s arn tags.entries) arn tags.entries).WellFormed :=
    ((tagsAt_tagged s arn _).trans (tagsAt_untagged _ arn _)).wellFormed hs
  have hsettled := settled_untagged tags.distinct hr
  have hkeep := always_furnishRest hwf arn t h.visits
  have h := (does_convergeTgAttributes _ arn (textFields settings.targetGroup.attributes)).yields_bind_iff.1 h
  obtain ⟨ts, hts, h⟩ := Program.yields_lift_bind.1 h
  obtain ⟨_, t₂, h₂, h⟩ := Program.yields_bind.1 h
  obtain ⟨rfl, rfl⟩ := Program.yields_pure.1 h
  have hwf' := wellFormed_tgAttributed hwf arn (textFields settings.targetGroup.attributes)
  obtain ⟨wanted, ks, new, gone, hw, hplan, rfl, -⟩ := (yields_convergeTargets (hwf'.plain_targetsOf _)).1 h₂
  refine ⟨ts, wanted, hts, hw, rfl, ?_, ?_, hplan.met⟩
  · rw [Resources.tagsOf, hkeep.2.2.2]
    exact hsettled
  · have htargets := (always_convergeTargets hwf' arn ts).yields h₂
    rw [Resources.tgAttributesOf, htargets.2.2.2.2]
    exact meets_tgAttributed _ _ (distinct_textFields _)

theorem always_furnish (hs : s.WellFormed) (arn : String) :
    (furnish store service settings b tags (.text arn)).Always
      (fun u => u.WellFormed ∧ OnlyAt (.text arn) s u ∧
      u.targetGroups = s.targetGroups) s := by
  have htags := always_convergeTags s arn tags.distinct
  have hkeep : ∀ u, TagsAt (.text arn) s u →
      u.WellFormed ∧ OnlyAt (.text arn) s u ∧ u.targetGroups = s.targetGroups := by
    rintro u h
    refine ⟨h.wellFormed hs, OnlyAt.of_tagsAt h, ?_⟩
    obtain ⟨⟨l, rfl⟩, -⟩ := h
    rfl
  refine Program.Always.bind (htags.mono hkeep) fun _ t ht u hu => ?_
  obtain ⟨hwf, hat, hg⟩ := hkeep t (htags.yields ht)
  obtain ⟨hwf', hat', hg', -⟩ := always_furnishRest hwf arn u hu
  exact ⟨hwf', hat.trans hat', hg'.trans hg⟩

theorem rests_furnishRest
    (ha : Meets (u.tgAttributesOf (.text arn)) (textFields settings.targetGroup.attributes))
    (hts : resolveTargets store service b settings.targetGroup.targetType = .ok ts)
    (hw : targetKeys (ts.map Target.toValue) = .ok wanted)
    (hm : TargetsMet (u.targetsOf (.text arn)) wanted) :
    (furnishRest store service settings b (.text arn)).Rests True id u
      ⟨.text arn, settings.targetGroup.targetType, ts⟩ := by
  refine Program.Rests.bind (v := fun _ => ()) (x := ()) ?_ fun _ _ => Program.Rests.lift_bind hts ?_
  · obtain ⟨b, rs, h, -, hq⟩ := rests_convergeTgAttributes (distinct_textFields _) ha
    exact ⟨b, rs, h, rfl, fun _ => hq (definite_textFields _)⟩
  · refine Program.Rests.bind (v := id) (Program.Rests.of_ends (rests_convergeTargets hm hw)) fun _ _ => ?_
    exact Program.Rests.of_ends (Program.ends_pure.2 ⟨rfl, rfl, rfl⟩)

theorem rests_furnish (h : Furnished tags.entries (textFields settings.targetGroup.attributes) wanted arn u)
    (hts : resolveTargets store service b settings.targetGroup.targetType = .ok ts)
    (hw : targetKeys (ts.map Target.toValue) = .ok wanted) :
    (furnish store service settings b tags (.text arn)).Rests (Definite tags.entries) id u
      ⟨.text arn, settings.targetGroup.targetType, ts⟩ := by
  refine Program.Rests.bind (rests_convergeTags tags.distinct h.tags) fun _ _ => ?_
  obtain ⟨g, rs, he, hg, hq⟩ := rests_furnishRest h.attributes hts hw h.targets
  exact ⟨g, rs, he, hg, fun _ => hq trivial⟩

theorem resumes_furnishRest (hs : s.WellFormed) (arn : String) :
    (furnishRest store service settings b (.text arn)).Resumes id s := by
  have hattr := does_convergeTgAttributes s arn (textFields settings.targetGroup.attributes)
  have hmet := meets_tgAttributed s arn (distinct_textFields settings.targetGroup.attributes)
  have hwf := wellFormed_tgAttributed hs arn (textFields settings.targetGroup.attributes)
  refine Program.Resumes.bind (v := fun _ => ())
    (hattr.resumes (rests_convergeTgAttributes (distinct_textFields _) hmet).yields) (fun _ _ _ => rfl) ?_ ?_
  · intro _ t ht
    obtain ⟨-, rfl⟩ := hattr.1.unique ht
    refine Program.Resumes.lift_bind fun ts hts => ?_
    refine Program.Resumes.bind (resumes_convergeTargets (hwf.plain_targetsOf _)) (fun _ _ _ => rfl)
      (fun _ _ _ => Program.resumes_pure _ _) fun _ t' u ht' hu => ?_
    rw [Program.visits_pure.1 hu]
    obtain ⟨wanted, ks, new, gone, hw, hplan, rfl, -⟩ :=
      (yields_convergeTargets (hwf.plain_targetsOf _)).1 ht'
    exact ⟨false, (rests_convergeTargets hplan.met hw).yields, rfl⟩
  · intro _ t u ht hu
    obtain ⟨-, rfl⟩ := hattr.1.unique ht
    refine (rests_convergeTgAttributes (distinct_textFields _) ?_).yields
    have hkeep : u.tgAttributes =
        (tgAttributed s arn (textFields settings.targetGroup.attributes)).tgAttributes := by
      rcases Program.visits_lift_bind.1 hu with rfl | ⟨ts, -, hu⟩
      · rfl
      have htargets := always_convergeTargets hwf arn ts
      rcases Program.visits_bind.1 hu with hu | ⟨_, t, hy, hu⟩
      · exact (htargets u hu).2.2.2.2
      · rw [Program.visits_pure.1 hu]
        exact (htargets.yields hy).2.2.2.2
    rw [Resources.tgAttributesOf, hkeep]
    exact hmet

theorem resumes_furnish (hs : s.WellFormed) (arn : String) :
    (furnish store service settings b tags (.text arn)).Resumes id s := by
  have hwf : ∀ {_a t}, (convergeTags (.text arn) (.object tags.entries)).Yields s _a t →
      t.WellFormed := fun ht =>
    ((always_convergeTags s arn tags.distinct).yields ht).wellFormed hs
  refine Program.Resumes.bind (resumes_convergeTags s arn tags.distinct) (fun _ _ _ => rfl)
    (fun _ t ht => resumes_furnishRest (hwf ht) arn) fun _ t u ht hu => ?_
  refine (rests_convergeTags tags.distinct ?_).yields
  have hkeep := (always_furnishRest (hwf ht) arn u hu).2.2.2
  obtain ⟨hr, rfl, -⟩ := (yields_convergeTags tags.distinct).1 ht
  rw [Resources.tagsOf, hkeep]
  exact settled_untagged tags.distinct hr

end

/-! ## The target group of a backend -/

/-- What the target group of a backend should be. -/
structure GroupPlan where
  name : String
  check : Fields
  tags : Table String Value

/-- The name of the target group of a backend. -/
def groupName (i : Inputs) (service : Value) (settings : ServiceSettings) (b : Backend) :
    Except Error String := do
  let (ns, name) ← names service
  i.identity.nameTg ns name b.service b.port settings.targetGroup.targetType b.protocol

/-- The plan for the target group of a backend. -/
def planGroup (i : Inputs) (service : Value) (settings : ServiceSettings) (b : Backend) :
    Except Error GroupPlan := do
  let (ns, name) ← names service
  let targetType := settings.targetGroup.targetType
  let endpoints ← if targetType.same (.text "ip") then endpointsOrNull i.store service else pure .null
  let port ← healthCheckPort service settings.healthCheck.port targetType endpoints
  let tags ← targetGroupTags i ns name settings b
  let tgName ← i.identity.nameTg ns name b.service b.port targetType b.protocol
  return ⟨tgName, healthCheck settings (.text port), tags⟩

/-- The target group of a plan is there, and nothing of it has to be changed. -/
structure GroupReady (plan : GroupPlan) (attributes : Fields) (wanted : List (Key × Key))
    (arn : String) (u : Resources) :
    Prop where
  there : GroupThere plan.name plan.check arn u
  furnished : Furnished plan.tags.entries attributes wanted arn u

/-- What belongs to a target group is the same. -/
structure SameGroup (k : Key) (s u : Resources) : Prop where
  targetGroups : u.targetGroups.get? k = s.targetGroups.get? k
  tgAttributes : u.tgAttributes.get? k = s.tgAttributes.get? k
  targets : u.targets.get? k = s.targets.get? k
  tags : u.tags.get? k = s.tags.get? k

section

variable {i : Inputs} {service : Value} {settings : ServiceSettings} {b : Backend} {plan : GroupPlan}
  {attributes : Fields} {arn : String} {s t u : Resources} {wanted : List (Key × Key)} {ts : List Target}

theorem SameGroup.refl (k : Key) (s : Resources) : SameGroup k s s := ⟨rfl, rfl, rfl, rfl⟩

theorem SameGroup.trans {k : Key} (h : SameGroup k s t) (h' : SameGroup k t u) : SameGroup k s u :=
  ⟨h'.targetGroups.trans h.targetGroups, h'.tgAttributes.trans h.tgAttributes, h'.targets.trans h.targets,
    h'.tags.trans h.tags⟩

theorem SameGroup.of_onlyAt {k k' : Key} (h : OnlyAt k s u) (hk : (k == k') = false) : SameGroup k' s u :=
  ⟨h.targetGroups k' hk, h.tgAttributes k' hk, h.targets k' hk, h.tags k' hk⟩

theorem GroupReady.congr (h : GroupReady plan attributes wanted arn s) (hsame : SameGroup (.text arn) s u) :
    GroupReady plan attributes wanted arn u := by
  obtain ⟨⟨tg, hk, hn, hmet⟩, htags, hattributes, htargets⟩ := h
  refine ⟨⟨tg, hsame.targetGroups.trans hk, hn, hmet⟩, ?_, ?_, ?_⟩
  · rwa [Resources.tagsOf, hsame.tags]
  · rwa [Resources.tgAttributesOf, hsame.tgAttributes]
  · rwa [Resources.targetsOf, hsame.targets]

theorem planGroup_eq_ok (h : planGroup i service settings b = .ok plan) :
    groupName i service settings b = .ok plan.name ∧
      (∃ port, plan.check = healthCheck settings (.text port)) ∧
      ∃ ns name, names service = .ok (ns, name) ∧ targetGroupTags i ns name settings b = .ok plan.tags := by
  obtain ⟨⟨ns, name⟩, hn, h⟩ := bind_eq_ok_iff.1 h
  have hrest : ∀ endpoints, (do
      let port ← healthCheckPort service settings.healthCheck.port settings.targetGroup.targetType endpoints
      let tags ← targetGroupTags i ns name settings b
      let tgName ← i.identity.nameTg ns name b.service b.port settings.targetGroup.targetType b.protocol
      return GroupPlan.mk tgName (healthCheck settings (.text port)) tags) = .ok plan →
      i.identity.nameTg ns name b.service b.port settings.targetGroup.targetType b.protocol = .ok plan.name ∧
        (∃ port, plan.check = healthCheck settings (.text port)) ∧
        ∃ ns' name', names service = .ok (ns', name') ∧
          targetGroupTags i ns' name' settings b = .ok plan.tags := by
    intro endpoints h
    obtain ⟨port, -, h⟩ := bind_eq_ok_iff.1 h
    obtain ⟨tags, htags, h⟩ := bind_eq_ok_iff.1 h
    obtain ⟨tgName, htg, h⟩ := bind_eq_ok_iff.1 h
    cases h
    exact ⟨htg, ⟨port, rfl⟩, ns, name, hn, htags⟩
  rw [groupName, hn]
  dsimp only at h
  split at h
  · obtain ⟨endpoints, -, h⟩ := bind_eq_ok_iff.1 h
    rw [hn] at hrest
    exact hrest endpoints h
  · rw [hn] at hrest
    exact hrest .null h

theorem isCheck_of_planGroup (h : planGroup i service settings b = .ok plan) : IsCheck plan.check := by
  obtain ⟨-, ⟨port, hport⟩, -⟩ := planGroup_eq_ok h
  rw [hport]
  exact isCheck_healthCheck settings _

theorem convergeTargetGroup_eq : convergeTargetGroup i service settings b = (do
    let plan ← (planGroup i service settings b : Except Error GroupPlan)
    let group ← ensureTargetGroup i plan.name settings.targetGroup.targetType b.protocol
      plan.check plan.tags.toObject
    let arn ← group.item "TargetGroupArn"
    furnish i.store service settings b plan.tags arn) := by
  unfold convergeTargetGroup planGroup
  simp only [Program.liftM_bind, bind_assoc]
  refine bind_congr fun n => ?_
  obtain ⟨ns, name⟩ := n
  dsimp only
  split
  · simp only [bind_assoc, Program.liftM_bind, Program.liftM_pure, pure_bind]
    rfl
  · simp only [bind_assoc, Program.liftM_bind, Program.liftM_pure, pure_bind]
    rfl

/-- What a run of `convergeTargetGroup` brings about. -/
theorem yields_convergeTargetGroup {g : TargetGroup} (hs : s.WellFormed)
    (h : (convergeTargetGroup i service settings b).Yields s g t) :
    ∃ plan arn ts wanted, planGroup i service settings b = .ok plan ∧
      resolveTargets i.store service b settings.targetGroup.targetType = .ok ts ∧
      targetKeys (ts.map Target.toValue) = .ok wanted ∧ g = ⟨.text arn, settings.targetGroup.targetType, ts⟩ ∧
      GroupReady plan (textFields settings.targetGroup.attributes) wanted arn t := by
  rw [convergeTargetGroup_eq] at h
  obtain ⟨plan, hplan, h⟩ := Program.yields_lift_bind.1 h
  obtain ⟨group, t₁, h₁, h⟩ := Program.yields_bind.1 h
  rcases ensureTargetGroup_cases hs (isCheck_of_planGroup hplan) with hfail | ⟨arn, tg, t, hdoes,
    harn, hthere, ht, -, -, -⟩
  · exact absurd h₁ (hfail.1 group t₁)
  obtain ⟨rfl, rfl⟩ := hdoes.1.unique h₁
  rw [Value.item_object, Fields.item_of_get_text harn] at h
  have hkeep := (always_furnish ht arn _ h.visits).2.2
  obtain ⟨ts, wanted, hts, hw, rfl, hfurnished⟩ := yields_furnish ht h
  obtain ⟨tg', hk, hn, hmet⟩ := hthere
  exact ⟨plan, arn, ts, wanted, hplan, hts, hw, rfl, ⟨tg', hkeep ▸ hk, hn, hmet⟩, hfurnished⟩

/-- What a run of `convergeTargetGroup` leaves alone, wherever it is cut off. -/
theorem visits_convergeTargetGroup (hs : s.WellFormed)
    (h : (convergeTargetGroup i service settings b).Visits s u) :
    u.WellFormed ∧ (u = s ∨ ∃ n arn, groupName i service settings b = .ok n ∧ OnlyAt (.text arn) s u ∧
      GroupNamed n (.text arn) u ∧
      ∀ tg, s.targetGroups.get? (.text arn) = some tg → Fields.get tg "TargetGroupName" = .text n) := by
  rw [convergeTargetGroup_eq] at h
  rcases Program.visits_lift_bind.1 h with rfl | ⟨plan, hplan, h⟩
  · exact ⟨hs, .inl rfl⟩
  rcases ensureTargetGroup_cases hs (isCheck_of_planGroup hplan) with
    hfail | ⟨arn, tg, t, hdoes, harn, ⟨tg', hk, hn, hmet⟩, ht, hat, hbefore, -⟩
  · rw [(hfail.bind _).2 u h]
    exact ⟨hs, .inl rfl⟩
  rcases hdoes.visits_bind h with rfl | h
  · exact ⟨hs, .inl rfl⟩
  rw [Value.item_object, Fields.item_of_get_text harn] at h
  obtain ⟨hu, hat', hg⟩ := always_furnish ht arn u h
  exact ⟨hu, .inr ⟨plan.name, arn, (planGroup_eq_ok hplan).1, hat.trans hat', ⟨tg', hg ▸ hk, hn⟩, hbefore⟩⟩

/-- The settings and tags of a plan equal themselves. -/
def GroupPlan.Definite (plan : GroupPlan) : Prop :=
  (∀ f ∈ plan.check, DefiniteSetting f) ∧ Converge.Definite plan.tags.entries

theorem rests_convergeTargetGroup (hu : u.WellFormed) (hplan : planGroup i service settings b = .ok plan)
    (hts : resolveTargets i.store service b settings.targetGroup.targetType = .ok ts)
    (hw : targetKeys (ts.map Target.toValue) = .ok wanted)
    (h : GroupReady plan (textFields settings.targetGroup.attributes) wanted arn u) :
    (convergeTargetGroup i service settings b).Rests plan.Definite id u
      ⟨.text arn, settings.targetGroup.targetType, ts⟩ := by
  rw [convergeTargetGroup_eq]
  refine Program.Rests.lift_bind hplan
    (Program.Rests.bind (v := fun g => g.item "TargetGroupArn") (x := .ok (.text arn)) ?_
    fun group hg => ?_)
  · exact (rests_ensureTargetGroup hu (isCheck_of_planGroup hplan) h.there).mono fun hd => hd.1
  · rw [hg]
    exact Program.Rests.lift_bind rfl ((rests_furnish h.furnished hts hw).mono fun hd => hd.2)

theorem resumes_convergeTargetGroup (hs : s.WellFormed) :
    (convergeTargetGroup i service settings b).Resumes id s := by
  rw [convergeTargetGroup_eq]
  refine Program.Resumes.lift_bind fun plan hplan => ?_
  have hc := isCheck_of_planGroup hplan
  rcases ensureTargetGroup_cases hs hc with hfail | ⟨arn, tg, t, hdoes, harn, hthere, ht, -, -, -⟩
  · exact (hfail.bind _).resumes
  have hitem : (Value.object tg).item "TargetGroupArn" = .ok (.text arn) := Fields.item_of_get_text harn
  refine Program.Resumes.bind (v := fun g => g.item "TargetGroupArn") (hdoes.resumes ?_)
    (fun _ _ h => by simp only [h]) ?_ ?_
  · rw [hitem]
    exact (rests_ensureTargetGroup ht hc hthere).yields
  · intro _ _ hy
    obtain ⟨rfl, rfl⟩ := hdoes.1.unique hy
    rw [hitem]
    exact Program.Resumes.lift_bind fun _ ha => by cases ha; exact resumes_furnish ht arn
  · intro _ _ u hy hu
    obtain ⟨rfl, rfl⟩ := hdoes.1.unique hy
    rw [hitem] at hu ⊢
    obtain ⟨hwf, -, hg⟩ := always_furnish ht arn u hu
    obtain ⟨tg', hk, hmet⟩ := hthere
    exact (rests_ensureTargetGroup hwf hc ⟨tg', hg ▸ hk, hmet⟩).yields

end

end Converge

end Balancer
