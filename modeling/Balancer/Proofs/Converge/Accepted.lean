import Balancer.Proofs.Converge.Innocent
import Balancer.Proofs.Converge.Lawful

/-!
# No request of a sync is refused

* `Regime.Suits a e` : a listener of a load balancer forwards to an ARN of the declared actions, or to a
  target group that is there, of its protocol and for the load balancer;
* `safe_convergeListeners` : such listeners are taken up, and they lead where they may;
* `safe_deleteTargetGroups`, `safe_collect` : no listener forwards to what is left over,
  so that it may be deleted;
* `safe_convergeService`, `safe_deleteService`, `safe_sync` : a sync in a lawful cloud asks nothing that is
  refused, and leaves the cloud lawful wherever it is cut off.
-/

namespace Balancer

set_option autoImplicit false

namespace Converge

open Cluster Identity Routing Resources Program

/-! ## Listeners that are taken up -/

section

variable {a arn method : String} {own : Value} {known : String × Value} {spec : ListenerSpec}
  {actions : List Fields} {l : Fields} {s : Resources}

/-- A listener is taken up if no other one is on its port and its actions suit its protocol. -/
theorem unrefused_checkListener_of (hportful : Portful a s)
    (hknown : known.1 ∉ ["Port", "Protocol", "DefaultActions"])
    (hlb : ∀ lb, s.lbOfListener own (listenerParams known spec actions) = .ok lb → lb = .text a)
    (hfree : ∀ k l, s.listeners.get? k = some l → On a (portKey spec) l → k.toValue.same own = true)
    (hadmits : s.Admits spec.protocol (actions.map .object)) :
    Unrefused (s.checkListener method own (listenerParams known spec actions)) := by
  simp only [List.mem_cons, List.not_mem_nil, or_false, not_or] at hknown
  obtain ⟨hport, hprotocol, hdefault⟩ := hknown
  refine unrefused_checkListener (fun lb hok => unrefused_checkPort
    fun e he hother honlb taken port htaken hp => ?_) ?_
  · rw [hlb lb hok, Value.same_text_iff] at honlb
    obtain rfl : Value.int spec.port = port := by
      simpa [Fields.item, listenerParams, Entries.find?, hport] using hp
    have hget := Table.get?_of_mem he
    obtain ⟨k, hk⟩ := hportful e.1 e.2 hget honlb
    rw [hk] at htaken
    cases htaken
    refine Bool.eq_false_iff.2 fun hsame => ?_
    have hkey : (k == portKey spec) = true := Key.beq_of_same hsame
    rw [hfree e.1 e.2 hget ⟨honlb, k, hk, BEq.symm hkey⟩] at hother
    cases hother
  · intro as has
    rw [actionsOf_listenerParams known hdefault] at has
    cases has
    have hitem : Fields.item (listenerParams known spec actions) "Protocol" = .ok spec.protocol := by
      simp [Fields.item, listenerParams, Entries.find?, hprotocol]
    rw [(checkProtocol_eq_ok_iff hitem).2 hadmits]
    exact errs_ok _

theorem accepts_createListener (hs : s.WellFormed) (hportful : Portful a s)
    (hfree : ∀ k l, s.listeners.get? k = some l → ¬ On a (portKey spec) l)
    (hadmits : s.Admits spec.protocol (actions.map .object)) :
    s.Accepts (.createListener (listenerParams ("LoadBalancerArn", .text a) spec actions)) := by
  refine accepts_of_refusal (unrefused_checkListener_of hportful (by simp) (fun lb hlb => ?_)
    (fun k l hl hon => ?_) hadmits)
  · unfold lbOfListener at hlb
    dsimp only at hlb
    split at hlb
    · cases hlb
      rfl
    · -- an empty ARN counts as none, and under the null ARN of a new listener there is none
      have hnone : s.listeners.get? .null = none := by
        cases hl : s.listeners.get? .null with
        | none => rfl
        | some l =>
          obtain ⟨arn, harn, -⟩ := hs.listenerOwn hl
          cases harn
      have hkey : Value.null.key = .ok .null := rfl
      simp [at_, hkey, hnone, bind, Except.bind] at hlb
  · exact absurd hon (hfree k l hl)

theorem accepts_modifyListener (hs : s.WellFormed) (hportful : Portful a s)
    (hl : s.listeners.get? (.text arn) = some l) (hon : On a (portKey spec) l)
    (hadmits : s.Admits spec.protocol (actions.map .object)) :
    s.Accepts (.modifyListener (listenerParams ("ListenerArn", .text arn) spec actions)) := by
  refine accepts_of_refusal (errs_bind.2 ⟨Value.errs_fieldsItem _ _, fun own hown => ?_⟩)
  obtain rfl : Value.text arn = own := Except.ok.inj hown
  refine unrefused_checkListener_of hportful (by simp) (fun lb hlb => ?_) (fun k l' hl' hon' => ?_) hadmits
  · have hholds : (Fields.get (listenerParams ("ListenerArn", .text arn) spec actions)
        "LoadBalancerArn").holds = false := by
      simp [Fields.get, listenerParams, Entries.find?, Value.holds]
    simpa [lbOfListener, hholds, at_, hl, Fields.item_of_get_text hon.1, bind, Except.bind, pure,
      Except.pure, eq_comm] using hlb
  · rw [hon'.arn_unique hs hl' hl hon]
    simp [Key.toValue]

end

/-! ## Listeners of a Service -/

namespace Regime

/-- The target group of an ARN is there, with a protocol, and its name is for a load balancer. -/
def Serves (r : Regime) (a b : String) (protocol : Value) (s : Resources) : Prop :=
  ∃ tg n, s.targetGroups.get? (.text b) = some tg ∧ Fields.get tg "TargetGroupName" = .text n ∧
    Fields.get tg "Protocol" = protocol ∧ protocol.same protocol = true ∧ LbNamed (r.lb n) (.text a) s

/-- The action of a listener forwards to an ARN of the declared actions, or to a target group that
serves the load balancer. -/
def Suits (r : Regime) (a : String) (e : ListenerSpec × List Fields) (s : Resources) : Prop :=
  ∃ action b, e.2 = numbered [action] ∧ Fields.get action "TargetGroupArn" = .text b ∧
    (r.foreign b ∨ r.Serves a b e.1.protocol s)

end Regime

section

variable {r : Regime} {a : String} {e : ListenerSpec × List Fields}
  {pairs : List (ListenerSpec × List Fields)} {k p : Key} {K : Key → Prop} {l : Fields} {spec : ListenerSpec}
  {actions : List Fields} {current : Table Key Value} {s t u : Resources}

theorem LbNamed.onPorts {n : String} (h : LbNamed n k s) (hp : OnPorts a K s t) : LbNamed n k t := by
  obtain ⟨n', ls, rfl⟩ := hp.same
  exact h

theorem Regime.Suits.onPorts (h : r.Suits a e s) (hp : OnPorts a K s t) : r.Suits a e t := by
  obtain ⟨n', ls, rfl⟩ := hp.same
  exact h

theorem Regime.Suits.admits (h : r.Suits a e s) (hclear : r.Clear s) :
    s.Admits e.1.protocol (e.2.map .object) := by
  obtain ⟨action, b, hactions, hb, htarget⟩ := h
  rw [hactions]
  refine List.forall_mem_singleton.2 ⟨.text b, .text b, ?_, rfl, fun tg hk => ?_⟩
  · show Except.ok (Fields.get (Entries.put "Order" (.int 1) action) "TargetGroupArn") = _
    rw [Fields.get_put, if_neg (by decide), hb]
  · rcases htarget with hforeign | ⟨tg', n, hk', -, hprotocol, hsame, -⟩
    · rw [hclear b hforeign] at hk
      cases hk
    · rw [hk] at hk'
      cases hk'
      rwa [hprotocol]

/-- A listener that was written for actions that suit it leads where it may. -/
theorem Regime.Suits.leads (h : r.Suits a e s)
    (hgiven : ∀ k tg, s.targetGroups.get? k = some tg → IsNew 0 s.nextId k) (hon : On a p l)
    (hw : Written e.1 e.2 l) : r.Leads l s := by
  obtain ⟨action, b, hactions, hb, htarget⟩ := h
  refine ⟨Entries.put "Order" (.int 1) action, a, b, ?_, hon.1, ?_, htarget.imp_right ?_⟩
  · rw [Fields.get, hw.actions, hactions]
    rfl
  · rw [Fields.get_put, if_neg (by decide), hb]
  · rintro ⟨tg, n, hk, hn, -, -, hlb⟩
    refine ⟨hgiven _ tg hk, fun n' hn' => ?_⟩
    obtain ⟨tg', hk', hn'⟩ := hn'
    rw [hk] at hk'
    cases hk'
    rw [hn] at hn'
    cases hn'
    exact hlb

/-- The cloud stays lawful when a listener is ensured. -/
theorem Regime.Lawful.ensured (h : r.Lawful s) (hsuits : r.Suits a (spec, actions) s)
    (he : Ensured a spec actions s t) :
    r.Lawful t := by
  obtain ⟨n', ls, rfl⟩ := he.onPorts.same
  have hgiven : ∀ k tg, s.targetGroups.get? k = some tg → IsNew 0 n' k := fun k tg hk =>
    (h.given k tg hk).mono (Nat.le_refl _) he.nextId
  refine ⟨he.wellFormed, hgiven, fun k tg hk => ?_, fun k l hl => ?_⟩
  · obtain ⟨n, hn⟩ := h.group k tg hk
    exact ⟨n, hn.name, hn.protocol, hn.tags⟩
  rcases he.written k l hl with hl | ⟨hon, hw⟩
  · exact (h.listener k l hl).mono he.nextId (fun _ _ _ hn => hn) fun _ _ _ hm => hm
  · exact (hsuits.onPorts he.onPorts).leads hgiven hon hw

theorem safe_ensureListener (h : r.Lawful s) (hportful : Portful a s)
    (hknow : Knows current a s (portKey spec)) (hsuits : r.Suits a (spec, actions) s) :
    (ensureListener (.text a) (current.get? (portKey spec)) spec actions).Safe r.Allows r.Lawful
      (fun _ t => Ensured a spec actions s t) s := by
  have hcases : (ensureListener (.text a) (current.get? (portKey spec)) spec actions).Fails s ∨
      ∃ v t, (ensureListener (.text a) (current.get? (portKey spec)) spec actions).Does s v t ∧
        Ensured a spec actions s t :=
    ensureListener_cases h.wellFormed hknow
  refine ⟨?_, fun u hu => ?_, fun v t hv => ?_⟩
  · unfold Knows at hknow
    unfold ensureListener
    cases hget : current.get? (portKey spec) with
    | none =>
      simp only [hget] at hknow
      refine (each_answer fun hclear => ?_).bind fun _ _ _ => each_lift_bind fun _ _ =>
        (each_info _ _).bind fun _ _ _ => each_pure _
      exact accepts_createListener h.wellFormed hportful hknow (hsuits.admits hclear)
    | some v =>
      simp only [hget] at hknow
      obtain ⟨arn, l, rfl, hl, hon⟩ := hknow
      obtain ⟨arn', harn', harn⟩ := h.wellFormed.listenerOwn hl
      cases harn'
      refine each_lift_bind fun differs _ => ?_
      split
      · refine each_lift_bind fun arn' harn' => ?_
        obtain rfl : Value.text arn = arn' := Except.ok.inj ((Fields.item_of_get_text harn).symm.trans harn')
        refine (each_answer fun hclear => ?_).bind fun _ _ _ => (each_info _ _).bind fun _ _ _ => each_pure _
        exact accepts_modifyListener h.wellFormed hportful hl hon (hsuits.admits hclear)
      · exact each_pure _
  · rcases hcases with hfail | ⟨v, t, hdoes, hensured⟩
    · exact hfail.2 u hu ▸ h
    · rcases hdoes.2 u hu with rfl | rfl
      · exact h
      · exact h.ensured hsuits hensured
  · rcases hcases with hfail | ⟨v', t', hdoes, hensured⟩
    · exact (hfail.1 v t hv).elim
    · obtain ⟨-, rfl⟩ := hdoes.1.unique hv
      exact hensured

theorem safe_ensureListeners (h : r.Lawful s) (hportful : Portful a s) (hd : DistinctPorts pairs)
    (hknow : ∀ e ∈ pairs, Knows current a s (portKey e.1)) (hsuits : ∀ e ∈ pairs, r.Suits a e s) :
    (ensureListeners (.text a) current pairs).Safe r.Allows r.Lawful (fun _ _ => True) s := by
  -- by the list of listeners: what is known and what suits stays so on the ports to come
  induction pairs generalizing s with
  | nil => exact safe_pure h trivial
  | cons e pairs ih =>
    obtain ⟨hhead, hrest⟩ := List.forall_mem_cons.1 hsuits
    refine Safe.bind (safe_ensureListener h hportful (hknow e List.mem_cons_self) hhead) fun _ t ht he => ?_
    have hp := he.onPorts
    refine Safe.bind (ih ht (hp.portful hportful) (List.pairwise_cons.1 hd).2 (knows_rest hd hknow hp)
      fun e' he' => ?_) ?_
    · exact (hrest e' he').onPorts hp
    · exact fun _ u hu _ => safe_pure hu trivial

end

/-! ## What a Service asks for -/

/-- A target group has a name only if its protocol is a text. -/
theorem text_of_groupName {i : Inputs} {service : Value} {settings : ServiceSettings}
    {b : Backend} {n : String} (h : groupName i service settings b = .ok n) :
    ∃ protocol, b.protocol = .text protocol := by
  obtain ⟨⟨ns, name⟩, -, h⟩ := bind_eq_ok_iff.1 h
  unfold nameTg at h
  obtain ⟨_, -, h⟩ := bind_eq_ok_iff.1 h
  obtain ⟨_, -, h⟩ := bind_eq_ok_iff.1 h
  obtain ⟨_, -, h⟩ := bind_eq_ok_iff.1 h
  obtain ⟨_, -, h⟩ := bind_eq_ok_iff.1 h
  obtain ⟨_, -, h⟩ := bind_eq_ok_iff.1 h
  obtain ⟨protocol, hprotocol, -⟩ := bind_eq_ok_iff.1 h
  exact ⟨protocol, Value.eq_text_of_textFor hprotocol⟩

section

variable {r : Regime} {a ns name : String} {i : Inputs} {service : Value} {settings : ServiceSettings}
  {groups : TargetGroups} {specs : List ListenerSpec} {actions : List (List Fields)} {s t u : Resources}

/-- A reconcile of a Service that keeps to the regime, with its load balancer and its target groups ready. -/
structure Regime.Staged (r : Regime) (a ns name : String) (i : Inputs) (service : Value)
    (settings : ServiceSettings) (groups : TargetGroups) (s : Resources) : Prop where
  governs : r.Governs i service
  asked : settingsOf i service = .ok settings
  names : names service = .ok (.text ns, .text name)
  lb : LbNamed (lbName r.stem ns name) (.text a) s
  groups : GroupsReady i service settings groups s

/-- The target group of a backend is in the table, and it serves the load balancer. -/
theorem Regime.Staged.serves (h : r.Staged a ns name i service settings groups s) (hlawful : r.Lawful s)
    (hspecs : listenerSpecs service settings = .ok specs) {spec : ListenerSpec} (hspec : spec ∈ specs)
    (hused : Actions.isUsed spec.backend.port = false) :
    ∃ key g b, spec.backend.key = .ok key ∧ groups.byBackend.get? key = some g ∧ g.arn = .text b ∧
      r.Serves a b spec.protocol s := by
  obtain ⟨_, _, specs', _, _, hspecs', hbackends, -⟩ := h.groups
  rw [hspecs] at hspecs'
  cases hspecs'
  have hdistinct := h.governs.distinctBackends h.asked specs hspecs
  obtain ⟨key, g, hkey, hg, plan, arn, ts, wanted, hplan, -, -, rfl, hready⟩ := hbackends.ready hdistinct
    (fun key hkey => by cases hkey) spec.backend (List.mem_map_of_mem hspec) hused
  have hn := (planGroup_eq_ok hplan).1
  obtain ⟨hnames, hbackend⟩ := h.governs.claim settings specs h.asked hspecs spec hspec hused plan.name hn
  obtain ⟨tg, hk, hname, -⟩ := hready.there
  obtain ⟨n, hclaimed⟩ := hlawful.group _ tg hk
  obtain rfl : n = plan.name := Value.text.inj (hclaimed.name.symm.trans hname)
  have hprotocol := (backend_of_listenerSpecs hspecs hspec).1
  refine ⟨key, _, arn, hkey, hg, rfl, tg, plan.name, hk, hname, ?_, ?_, ?_⟩
  · rw [hclaimed.protocol, ← hbackend, hprotocol]
  · obtain ⟨protocol, htext⟩ := text_of_groupName hn
    rw [← hprotocol, htext, Value.same_text_iff]
  · rw [h.names] at hnames
    cases hnames
    exact h.lb

/-- The listeners that a Service asks for suit its load balancer. -/
theorem Regime.Staged.suits (h : r.Staged a ns name i service settings groups s) (hlawful : r.Lawful s)
    (hasks : Asks service settings groups specs actions) : ∀ e ∈ specs.zip actions, r.Suits a e s := by
  intro e he
  obtain ⟨hmem, hbuilt⟩ := hasks.built he
  obtain ⟨action, hactions, ⟨name, hget, -⟩ | ⟨hused, key, g, hkey, hg, rfl⟩⟩ := action_of_buildActions hbuilt
  · obtain ⟨b, hb, hforeign⟩ := h.governs.actions settings name action h.asked hget
    exact ⟨action, b, hactions, hb, .inl hforeign⟩
  · obtain ⟨key', g', b, hkey', hg', harn, hserves⟩ := h.serves hlawful hasks.1 hmem hused
    rw [hkey] at hkey'
    cases hkey'
    rw [hg] at hg'
    cases hg'
    exact ⟨_, b, hactions, harn, .inr hserves⟩

theorem Regime.Staged.onPorts {K : Key → Prop} (h : r.Staged a ns name i service settings groups s)
    (hp : OnPorts a K s t) :
    r.Staged a ns name i service settings groups t := by
  obtain ⟨n, ls, rfl⟩ := hp.same
  exact ⟨h.governs, h.asked, h.names, h.lb, h.groups.congr fun _ _ _ _ => ⟨rfl, rfl, rfl, rfl⟩⟩

theorem safe_deleteListeners {row : List (Key × Value)} (h : r.Lawful s) (hrow : ∀ e ∈ row, HasArn e.2) :
    (deleteListeners row).Safe r.Allows r.Lawful (fun _ _ => True) s := by
  have hasks : (deleteListeners row).Asks IsSafe := asks_deleteListeners fun _ _ _ _ => trivial
  refine ⟨hasks.each fun q u hq => Regime.allows_of_isSafe hq u, fun u hu => ?_, fun _ _ _ => trivial⟩
  obtain ⟨gone, -, rfl⟩ := (deleteListeners_each hrow).2 u hu
  exact h.dropListeners gone

theorem safe_convergeListeners (h : r.Lawful s) (hstaged : r.Staged a ns name i service settings groups s) :
    (convergeListeners (.text a) service settings groups).Safe r.Allows r.Lawful
      (fun _ t => r.Staged a ns name i service settings groups t ∧
        ∃ specs actions, Asks service settings groups specs actions ∧ ListenersMet a specs actions t) s := by
  have hsafe : (convergeListeners (.text a) service settings groups).Safe r.Allows r.Lawful
      (fun _ _ => True) s := by
    refine safe_lift_bind h fun specs hspecs => safe_lift_bind h fun actions hactions => ?_
    have hasks : Asks service settings groups specs actions := ⟨hspecs, hactions⟩
    have hread : (answer (.listeners (.text a))).Safe r.Allows r.Lawful
        (fun ls u => u = s ∧ ls = (s.listenersOf (.text a)).map .object) s := by
      refine safe_answer (Regime.allows_of_isSafe (q := .listeners (.text a)) trivial s) h h
        fun ls hls => ⟨rfl, ?_⟩
      rw [perform_listeners] at hls
      exact (Except.ok.inj hls).symm
    refine Safe.bind hread fun ls u _ ⟨hu, hls⟩ => ?_
    subst hu hls
    refine safe_lift_bind h fun current hcurrent => ?_
    obtain ⟨hportful, hknow⟩ := knows_byPort h.wellFormed hcurrent
    have hensure := safe_ensureListeners h hportful hasks.distinctPorts (fun e _ => hknow (portKey e.1))
      (hstaged.suits h hasks)
    refine Safe.bind hensure fun _ t ht _ => safe_lift_bind ht fun row hrow => ?_
    refine Safe.bind (safe_deleteListeners ht (mem_staleArns h.wellFormed hportful hknow hrow).1)
      fun _ t ht _ => ?_
    exact safe_pure ht trivial
  refine ⟨hsafe.each, hsafe.always, fun ls t ht => ⟨?_, yields_convergeListeners h.wellFormed ht⟩⟩
  exact hstaged.onPorts ((always_convergeListeners h.wellFormed).yields ht).2

end

/-! ## Target groups that are left over -/

theorem alikeField_of_mem {fs gs : Fields} {f : String × Value}
    (h : Value.alikeFields fs gs = true) (hf : f ∈ fs) :
    Value.alikeField f gs = true := by
  induction fs with
  | nil => cases hf
  | cons g fs ih =>
    obtain ⟨hg, hfs⟩ := Bool.and_eq_true_iff.1 h
    rcases List.mem_cons.1 hf with rfl | hf
    · exact hg
    · exact ih hfs hf

/-- Actions that are compared as equal forward to one target group. -/
theorem target_of_sameActions {action desired : Fields} {b b' : String} {current : List Fields}
    (hb : Fields.get action "TargetGroupArn" = .text b)
    (hn : normalize (.list [.object action]) = .ok current) (hsame : sameActions current [desired] = true)
    (hb' : Entries.find? "TargetGroupArn" desired = some (.text b')) : b = b' := by
  obtain ⟨compared, rfl, hmem⟩ : ∃ compared, current = [compared] ∧
      ("TargetGroupArn", Value.text b) ∈ compared := by
    refine ⟨_, (Except.ok.inj hn).symm, List.mem_filter.2
      ⟨List.mem_map.2 ⟨"TargetGroupArn", by decide, by rw [hb]⟩, ?_⟩⟩
    simp [Value.same, Value.isDefinite, Value.alike]
  have hobject : Value.alike (.object compared) (.object desired) = true := by
    simpa [sameActions, Value.same, Value.isDefinite, Value.alike, Value.alikeItems] using hsame
  have hfields : (compared.length == desired.length && Value.alikeFields compared desired) = true := hobject
  have hfield := alikeField_of_mem (Bool.and_eq_true_iff.1 hfields).2 hmem
  simpa [Value.alikeField, hb', Value.alike] using hfield

section

variable {r : Regime} {a ns name : String} {i : Inputs} {service : Value} {settings : ServiceSettings}
  {groups : TargetGroups} {specs : List ListenerSpec} {actions : List (List Fields)} {wanted : Fields}
  {inUse ks : List Key} {s t u : Resources}

/-- Listeners forward to none of some target groups, but for ARNs of the declared actions. -/
def Regime.Spare (r : Regime) (ks : List Key) (s : Resources) : Prop :=
  ∀ k l action b, s.listeners.get? k = some l → Fields.get l "DefaultActions" = .list [.object action] →
    Fields.get action "TargetGroupArn" = .text b → .text b ∈ ks → r.foreign b

theorem allows_deleteTargetGroup {b : String} {tg : Fields} (h : r.Lawful s)
    (hk : s.targetGroups.get? (.text b) = some tg) (hspare : r.Spare ks s) (hb : .text b ∈ ks) :
    r.Allows (.deleteTargetGroup (.text b)) s := by
  refine fun hclear => accepts_of_refusal (unrefused_checkUnused fun l hl as has hforward => ?_)
  obtain ⟨k, hl⟩ := Table.mem_values_iff.1 hl
  obtain ⟨action, a, b', hactions, -, hb', -⟩ := h.listener k l hl
  rw [actionsOf, hactions] at has
  obtain rfl : [Value.object action] = as := Except.ok.inj has
  have hsame : (Value.text b').same (.text b) = true := by
    simpa [forwardsTo, hb', bind, Except.bind, pure, Except.pure] using hforward
  obtain rfl := Value.text.inj ((Value.same_text_iff _ _).1 hsame)
  rw [hclear b' (hspare k l action b' hl hactions hb' hb)] at hk
  cases hk

theorem safe_deleteTargetGroups (h : r.Lawful s) (hthere : ∀ k ∈ ks, ∃ tg, s.targetGroups.get? k = some tg)
    (hnodup : ks.Nodup) (hspare : r.Spare ks s) :
    (deleteTargetGroups ks).Safe r.Allows r.Lawful (fun _ u => u.loadBalancers = s.loadBalancers) s := by
  -- by the list of target groups: those to come are still there when one is deleted
  induction ks generalizing s with
  | nil => exact safe_pure h rfl
  | cons k ks ih =>
    obtain ⟨⟨tg, hk⟩, hrest⟩ := List.forall_mem_cons.1 hthere
    obtain ⟨b, rfl, -⟩ := h.wellFormed.tgOwn hk
    obtain ⟨hnot, hnodup⟩ := List.nodup_cons.1 hnodup
    have hdelete : (answer (.deleteTargetGroup (.text b))).Safe r.Allows r.Lawful
        (fun _ u => u = s.dropTgs [.text b]) s := by
      have hallows := allows_deleteTargetGroup h hk hspare List.mem_cons_self
      cases hc : checkUnused (.text b) s.listeners.values with
      | ok x =>
        have hperform := perform_deleteTg s b hc
        refine safe_answer hallows h (by rw [hperform]; exact h.dropTgs _) fun _ _ => ?_
        rw [hperform]
      | error e =>
        have hperform := perform_deleteTg_refused s b hc
        refine safe_answer hallows h (by rwa [hperform]) fun x hx => ?_
        rw [hperform] at hx
        cases hx
    refine Safe.bind hdelete fun _ u hu hdropped =>
      Safe.bind (Q := fun _ u => u = s.dropTgs [.text b]) (safe_info hu hdropped) ?_
    rintro _ u hu rfl
    refine ih hu (fun k' hk' => ?_) hnodup fun k' l action b' hl hactions hb' hmem => ?_
    · obtain ⟨tg', hthere'⟩ := hrest k' hk'
      have hne : k' ≠ .text b := fun heq => hnot (heq ▸ hk')
      exact ⟨tg', (sameGroup_dropTgs (by simpa using Key.text_beq_eq_false hne)).targetGroups.trans hthere'⟩
    · exact hspare k' l action b' hl hactions hb' (List.mem_cons_of_mem _ hmem)

theorem safe_collect (h : r.Lawful s) (hsel : groups.selector = .object wanted)
    (hspare : ∀ inUse, groups.arns = .ok inUse → r.Spare (leftover s wanted inUse) s) :
    (collect groups).Safe r.Allows r.Lawful (fun _ u => u.loadBalancers = s.loadBalancers) s := by
  obtain ⟨owned, howned, hkeys⟩ := tagged_eq_ok s wanted
  have hread : (answer (.resourcesTagged (.object wanted) (.text targetGroupType))).Safe r.Allows r.Lawful
      (fun t u => u = s ∧ t = owned) s := by
    refine safe_answer (Regime.allows_of_isSafe
      (q := .resourcesTagged (.object wanted) (.text targetGroupType)) trivial s) h h ?_
    intro t ht
    rw [perform_resourcesTagged, howned] at ht
    exact ⟨rfl, (Except.ok.inj ht).symm⟩
  unfold collect
  rw [hsel]
  refine safe_lift_bind h fun inUse hinUse => Safe.bind hread fun t u _ ⟨hu, ht⟩ => ?_
  subst hu ht
  refine safe_lift_bind h fun row hrow => ?_
  have hperm : (row.filter fun k => !inUse.contains k).Perm (leftover u wanted inUse) :=
    (hkeys ▸ sortBy_perm hrow).filter _
  refine safe_deleteTargetGroups h (fun k hk => ?_) ?_ fun k l action b hl hactions hb hmem => ?_
  · obtain ⟨tg, hthere, -⟩ := get?_of_mem_owned (List.mem_of_mem_filter (hperm.mem_iff.1 hk))
    exact ⟨tg, hthere⟩
  · exact hperm.nodup_iff.2 (List.Pairwise.filter _ (nodup_owned u wanted))
  · exact hspare inUse hinUse k l action b hl hactions hb (hperm.mem_iff.1 hmem)

/-- A listener that forwards to a selected target group belongs to the load balancer of the Service, but for
ARNs of the declared actions. -/
theorem Regime.Lawful.lb_of_owned {k : Key} {l action : Fields} {b : String} (h : r.Lawful s)
    (hl : s.listeners.get? k = some l) (hactions : Fields.get l "DefaultActions" = .list [.object action])
    (hb : Fields.get action "TargetGroupArn" = .text b)
    (hmem : .text b ∈ s.owned (ownerTags r.cluster ns name)) :
    r.foreign b ∨ ∃ a, Fields.get l "LoadBalancerArn" = .text a ∧
      LbNamed (lbName r.stem ns name) (.text a) s := by
  obtain ⟨tg, hk, htags⟩ := get?_of_mem_owned hmem
  obtain ⟨n, hclaimed⟩ := h.group _ tg hk
  obtain ⟨action', a, b', hactions', ha, hb', htarget⟩ := h.listener k l hl
  rw [hactions] at hactions'
  cases hactions'
  rw [hb] at hb'
  cases hb'
  refine htarget.imp_right fun ⟨_, hlead⟩ => ⟨a, ha, ?_⟩
  have howner : (ns, name) = ((r.claimant n).ns, (r.claimant n).name) := by
    by_contra hne
    rw [hasTags_ownerTags_of_ne hclaimed.tags hne] at htags
    cases htags
  obtain ⟨hns, hname⟩ := Prod.mk.inj howner
  rw [hns, hname]
  exact hlead n ⟨tg, hk, hclaimed.name⟩

/-- An action that is built forwards to an ARN of the declared actions or to a target group of the Service. -/
theorem Regime.Staged.target_of_built {b : Backend} {built : List Fields}
    (h : r.Staged a ns name i service settings groups s)
    (hbuilt : buildActions settings b groups = .ok built) :
    ∃ action type b, built = numbered [action] ∧ Fields.get action "Type" = .text type ∧
      Fields.get action "TargetGroupArn" = .text b ∧
        (r.foreign b ∨ ∃ key g, groups.byBackend.get? key = some g ∧ g.arn = .text b) := by
  obtain ⟨action, haction, ⟨name, hget, htype⟩ | ⟨-, key, g, -, hg, rfl⟩⟩ := action_of_buildActions hbuilt
  · obtain ⟨b, hb, hforeign⟩ := h.governs.actions settings name action h.asked hget
    exact ⟨action, _, b, haction, htype, hb, .inl hforeign⟩
  · obtain ⟨b, harn⟩ := textArns_of_ready h.groups key g hg
    exact ⟨_, "forward", b, haction, rfl, harn, .inr ⟨key, g, hg, harn⟩⟩

/-- When the listeners of a Service are there, each on its load balancer forwards to an ARN of the declared
actions or to a target group of the Service. -/
theorem Regime.Staged.target_of_listener {k : Key} {l action : Fields} {b : String}
    (h : r.Staged a ns name i service settings groups s) (hs : s.WellFormed)
    (hasks : Asks service settings groups specs actions) (hmet : ListenersMet a specs actions s)
    (hl : s.listeners.get? k = some l) (ha : Fields.get l "LoadBalancerArn" = .text a)
    (hactions : Fields.get l "DefaultActions" = .list [.object action])
    (hb : Fields.get action "TargetGroupArn" = .text b) :
    r.foreign b ∨ ∃ key g, groups.byBackend.get? key = some g ∧ g.arn = .text b := by
  obtain ⟨spec, hspec, hon⟩ : ∃ spec ∈ specs, On a (portKey spec) l := by
    by_contra hoff
    push Not at hoff
    exact hmet.only k l ⟨hl, ha, hoff⟩
  obtain ⟨built, hmem, hbuilt⟩ := hasks.exists_built hspec
  obtain ⟨desired, type, b', hdesired, htype, hb', htarget⟩ := h.target_of_built hbuilt
  have hnormal := normalize_texts htype hb'
  rw [← hdesired] at hnormal
  obtain ⟨arn, l', current, hl', hon', -, hcurrent, hsame⟩ :=
    (hmet.met _ hmem).agrees hnormal (sameActions_texts type b')
  rw [← hon.arn_unique hs hl hl' hon', hl] at hl'
  cases hl'
  rw [hactions] at hcurrent
  obtain ⟨compared, rfl⟩ : ∃ compared, current = [compared] := ⟨_, (Except.ok.inj hcurrent).symm⟩
  obtain rfl : b = b' := target_of_sameActions hb hcurrent hsame rfl
  exact htarget

/-- When the listeners of a Service are there, none forwards to a target group that is left over. -/
theorem Regime.Staged.spare (h : r.Staged a ns name i service settings groups s) (hlawful : r.Lawful s)
    (hasks : Asks service settings groups specs actions) (hmet : ListenersMet a specs actions s)
    (hinUse : groups.arns = .ok inUse) :
    r.Spare (leftover s (ownerTags r.cluster ns name) inUse) s := by
  intro k l action b hl hactions hb hmem
  obtain ⟨howned, hunused⟩ := List.mem_filter.1 hmem
  rcases hlawful.lb_of_owned hl hactions hb howned with hforeign | ⟨a', ha, hn⟩
  · exact hforeign
  rw [Key.text.inj (hn.unique hlawful.wellFormed h.lb)] at ha
  refine (h.target_of_listener hlawful.wellFormed hasks hmet hl ha hactions hb).resolve_right
    fun ⟨key, g, hg, harn⟩ => ?_
  obtain ⟨k', hk', hkey⟩ := exists_of_mapM hinUse g (Table.mem_values_iff.2 ⟨key, hg⟩)
  rw [harn] at hkey
  cases hkey
  rw [List.contains_iff_exists_mem_beq.2 ⟨_, hk', BEq.rfl⟩] at hunused
  cases hunused

end

/-! ## A sync -/

section

variable {r : Regime} {a ns name : String} {i : Inputs} {service live key : Value}
  {settings : ServiceSettings} {groups : TargetGroups} {s : Resources}

theorem Regime.Staged.selector (h : r.Staged a ns name i service settings groups s)
    (hcluster : i.identity.clusterName = .text r.cluster) :
    groups.selector = .object (ownerTags r.cluster ns name) := by
  obtain ⟨ns', name', -, selector, hnames, -, -, hselector, hgroups⟩ := h.groups
  rw [h.names] at hnames
  cases hnames
  rw [selector_text hcluster] at hselector
  cases hselector
  exact hgroups

theorem safe_serve (hcluster : i.identity.clusterName = .text r.cluster) (h : r.Lawful s)
    (hstaged : r.Staged a ns name i service settings groups s) :
    (serve service settings (.text a) live groups).Safe r.Allows r.Lawful (fun _ _ => True) s := by
  refine Safe.bind (safe_convergeListeners h hstaged) fun _ t ht ⟨hstaged, specs, actions, hasks, hmet⟩ => ?_
  refine Safe.bind (safe_collect ht (hstaged.selector hcluster) fun inUse hinUse =>
    hstaged.spare ht hasks hmet hinUse) ?_
  exact fun _ u hu _ => safe_lift_bind hu fun _ _ => safe_pure hu trivial

theorem safe_convergeService (hgoverns : r.Governs i service) (hstem : i.identity.stem = .text r.stem)
    (hcluster : i.identity.clusterName = .text r.cluster) (h : r.Lawful s) :
    (convergeService i service).Safe r.Allows r.Lawful (fun _ _ => True) s := by
  rw [convergeService_eq]
  refine safe_lift_bind h fun key hkey => safe_lift_bind h fun settings hsettings => ?_
  have hasked : settingsOf i service = .ok settings := bind_eq_ok_iff.2 ⟨key, hkey, hsettings⟩
  refine Safe.bind (safe_convergeLb hstem h) fun live t ht ⟨ns, name, hnames, a, harn, hn⟩ =>
    safe_lift_bind ht fun arn harn' => ?_
  rw [harn] at harn'
  cases harn'
  refine Safe.bind (safe_convergeTargetGroups hgoverns hcluster hasked hnames ht)
    fun groups u hu ⟨hready, hlbs⟩ => ?_
  refine safe_serve hcluster hu ⟨hgoverns, hasked, hnames, ?_, hready⟩
  obtain ⟨fs, hk, hname⟩ := hn
  exact ⟨fs, hlbs ▸ hk, hname⟩

theorem safe_deleteAllListeners (h : r.Lawful s) :
    (deleteAllListeners (.text a)).Safe r.Allows r.Lawful
      (fun _ u => u = s.dropListeners (ownListeners a s)) s := by
  have hasks : (deleteAllListeners (.text a)).Asks IsSafe :=
    Asks.bind (asks_answer (P := IsSafe) (by exact trivial)) fun _ => asks_deleteEach fun _ _ _ _ => trivial
  obtain ⟨hyields, hvisits⟩ := deleteAllListeners_each (a := a) h.wellFormed.ownArns
  refine ⟨hasks.each fun q u hq => Regime.allows_of_isSafe hq u, fun u hu => ?_,
    fun _ u hu => (hyields.unique hu).2⟩
  obtain ⟨gone, -, rfl⟩ := hvisits u hu
  exact h.dropListeners gone

/-- Without listeners of the load balancer of a Service, none forwards to a target group of the Service. -/
theorem spare_of_dropListeners {inUse : List Key} (h : r.Lawful s)
    (hn : LbNamed (lbName r.stem ns name) (.text a) s) :
    r.Spare (leftover (s.dropListeners (ownListeners a s)) (ownerTags r.cluster ns name) inUse)
      (s.dropListeners (ownListeners a s)) := by
  intro k l action b hl hactions hb hmem
  have hlawful := h.dropListeners (ownListeners a s)
  refine (hlawful.lb_of_owned hl hactions hb (List.mem_of_mem_filter hmem)).resolve_right
    fun ⟨a', ha, hn'⟩ => ?_
  rw [Key.text.inj (LbNamed.unique hlawful.wellFormed hn' hn)] at ha
  rw [dropListeners_listeners, Table.get?_eraseAll] at hl
  split at hl
  · cases hl
  · rename_i hany
    exact hany (List.any_eq_true.2 ⟨k, (mem_ownListeners h.wellFormed.ownArns).2 ⟨l, hl, ha⟩, BEq.rfl⟩)

theorem safe_tearDown (hcluster : i.identity.clusterName = .text r.cluster) (h : r.Lawful s)
    (hn : LbNamed (lbName r.stem ns name) (.text a) s) :
    (tearDown i ns name (.text a)).Safe r.Allows r.Lawful (fun _ _ => True) s := by
  have hstrip : (strip i ns name (.text a)).Safe r.Allows r.Lawful
      (fun _ u => u.loadBalancers = s.loadBalancers) s := by
    refine Safe.bind (safe_deleteAllListeners h) fun _ t ht hdropped =>
      safe_lift_bind ht fun selector hselector => ?_
    subst hdropped
    rw [selector_text hcluster] at hselector
    cases hselector
    exact safe_collect ht rfl fun inUse _ => spare_of_dropListeners h hn
  refine Safe.bind hstrip fun _ t ht hlbs => ?_
  obtain ⟨fs, hk, hname⟩ := hn
  have hperform := perform_deleteLb t a
  have hdelete : (answer (.deleteLoadBalancer (.text a))).Safe r.Allows r.Lawful (fun _ _ => True) t := by
    refine safe_answer (Regime.allows_of_isSafe (q := .deleteLoadBalancer (.text a)) trivial t)
      ht ?_ fun _ _ => trivial
    rw [hperform]
    exact ht.dropLb ⟨fs, hlbs ▸ hk, hname⟩
  exact Safe.bind hdelete fun _ u hu _ => safe_info hu trivial

theorem safe_deleteService (hstem : i.identity.stem = .text r.stem)
    (hcluster : i.identity.clusterName = .text r.cluster) (h : r.Lawful s) :
    (deleteService i key).Safe r.Allows r.Lawful (fun _ _ => True) s := by
  rw [deleteService_eq]
  refine safe_lift_bind h fun ⟨ns, name⟩ _ => safe_lift_bind h fun n hn => ?_
  rw [nameLb_text hstem] at hn
  cases hn
  refine Safe.bind (safe_loadBalancerNamed _ h) fun live t ht hlive => ?_
  rcases hlive with ⟨rfl, -⟩ | ⟨⟨fs, rfl⟩, a, harn, hnamed⟩
  · exact safe_pure ht trivial
  refine safe_lift_bind ht fun arn harn' => ?_
  rw [harn] at harn'
  cases harn'
  exact safe_tearDown hcluster ht hnamed

theorem safe_publish {lb : LoadBalancer} (h : r.Lawful s) :
    (publish i service lb).Safe r.Allows r.Lawful (fun _ _ => True) s := by
  refine safe_ite (fun _ => safe_lift_bind h fun _ _ => safe_ite (fun _ => ?_) fun _ => safe_pure h trivial)
    fun _ => safe_pure h trivial
  exact safe_lift_bind h fun _ _ => safe_lift_bind h fun _ _ => safe_notice h trivial

/-- A sync in a lawful cloud asks nothing that is refused, and leaves the cloud lawful
wherever it is cut off. -/
theorem safe_sync (hstem : i.identity.stem = .text r.stem)
    (hcluster : i.identity.clusterName = .text r.cluster)
    (hgoverns : ∀ service, wantedAt i key = .ok (some service) → r.Governs i service) (h : r.Lawful s) :
    (sync i key).Safe r.Allows r.Lawful (fun _ _ => True) s := by
  rw [sync_eq]
  refine safe_lift_bind h fun wanted hwanted => ?_
  cases wanted with
  | none => exact Safe.bind (safe_deleteService hstem hcluster h) fun _ t ht _ => safe_pure ht trivial
  | some service =>
    refine Safe.bind (Q := fun _ _ => True) (safe_notice h trivial) fun _ t ht _ => ?_
    refine Safe.bind (safe_convergeService (hgoverns service hwanted) hstem hcluster ht) fun lb u hu _ => ?_
    exact Safe.bind (safe_publish hu) fun _ v hv _ => safe_pure hv trivial

end

end Converge

end Balancer
