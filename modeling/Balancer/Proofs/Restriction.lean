import Balancer.Operator
import Balancer.Proofs.Cluster.Store
import Balancer.Proofs.Converge.Scheme
import Balancer.Proofs.History

/-!
# The restriction of schemes over whole runs

* `Happening`, `Step`, `Run` : events on cluster objects and syncs of keys, in any order; a sync
  may be cut off by any gate;
* `latest c hs` : the whitelist that the latest event on its config map announced;
* `Restricted` : what holds of an operator whenever a key is synced. `run_restricted` : so it does after every
  run, if the scheme is restricted.
-/

namespace Balancer.Operator

set_option autoImplicit false

open Cluster Converge Program Trigger

/-! ## Runs -/

/-- What may happen to an operator. -/
inductive Happening where
  | event (kind : ObjectKind) (type : EventType) (obj : Value)
  | configMap (type : EventType) (obj : Value)
  | sync (key : Value)

/-- What happens to an operator and its cloud. Nothing happens during a sync, which any gate may cut off. -/
inductive Step : Operator × Memory → Happening → Operator × Memory → Prop where
  | event (o : Operator) (m : Memory) (kind : ObjectKind) (type : EventType) (obj : Value) :
    Step (o, m) (.event kind type obj) ((o.observe kind type obj).2, m)
  | configMap (o : Operator) (m : Memory) (type : EventType) (obj : Value) :
    Step (o, m) (.configMap type obj) ((o.observeConfigMap type obj).2, m)
  | sync {γ : Type} (o : Operator) (m : Memory) (key : Value) (g : Gate γ) (c : γ) :
    Step (o, m) (.sync key) (o, ((syncOrWarn o.inputs key).run (Memory.cloud g) (c, m)).2.2)

inductive Run (s : Operator × Memory) : List Happening → Operator × Memory → Prop where
  | nil : Run s [] s
  | snoc {hs : List Happening} {h : Happening} {t u : Operator × Memory} : Run s hs t →
    Step t h u → Run s (hs ++ [h]) u

/-! ## The whitelist of a run -/

/-- The whitelist that is announced. -/
def Happening.announced? (c : Config) : Happening → Option (Except Error Whitelist)
  | .configMap type obj => Trigger.announced? c type obj
  | _ => none

/-- The whitelist that was announced last, none at first. -/
def latest (c : Config) (hs : List Happening) : Except Error Whitelist :=
  ((hs.filterMap (·.announced? c)).getLast?).getD (.ok ∅)

/-- The data of a config map are texts. -/
def Happening.HasTexts : Happening → Prop
  | .configMap _ obj =>
    (Fields.get obj.fields "data").IsPart ∧ ∀ e ∈ (Fields.get obj.fields "data").fields, ∃ t, e.2 = .text t
  | _ => True

/-- A record tells that a load balancer that faces the internet was created. -/
def FacesInternet (record : Record) : Prop :=
  record.name = "create_load_balancer" ∧
    (Fields.get record.args "Scheme").same (.text internetFacingScheme) = true

/-- A record is of the load balancer of the Service of a key, and a whitelist lists that Service. -/
def CreatedListed (o : Operator) (w : Whitelist) (key : Value) (record : Record) : Prop :=
  ∃ service ns name n, o.store.find? .service key = .ok (some service) ∧ objectKey service = .ok key ∧
    names service = .ok (.text ns, .text name) ∧ w.Lists (.text ns) (.text name) ∧
    o.identity.nameLb (.text ns) (.text name) = .ok n ∧ Fields.get record.args "Name" = .text n

/-- An operator has a whitelist in its configuration, and whenever a key is synced, load balancers that
face the internet are created for a listed Service only, and a rejected Service leads to no request
that changes the cloud. -/
structure Restricted (o : Operator) (m : Memory) (w : Whitelist) : Prop where
  whitelist : o.config.internetFacing = w.toValue
  listed (key : Value) (m' : Memory) : Step (o, m) (.sync key) (o, m') →
    ∃ new, m'.records = m.records ++ new ∧ ∀ record ∈ new, FacesInternet record → CreatedListed o w key record
  rejected (key : Value) (m' : Memory) : Step (o, m) (.sync key) (o, m') → Rejected o.inputs w key → m' = m

section

variable {o o' : Operator} {m m' : Memory} {c : Config} {w : Whitelist} {hs : List Happening}
  {h : Happening} {key : Value}

theorem latest_snoc_none (hnone : h.announced? c = none) : latest c (hs ++ [h]) = latest c hs := by
  unfold latest
  rw [List.filterMap_append, List.filterMap_cons_none hnone, List.filterMap_nil, List.append_nil]

theorem latest_snoc_some {x : Except Error Whitelist} (hsome : h.announced? c = some x) :
    latest c (hs ++ [h]) = x := by
  unfold latest
  rw [List.filterMap_append, List.filterMap_cons_some hsome, List.filterMap_nil, List.getLast?_concat]
  rfl

/-! ## Steps -/

/-- An operator that differs in the queue and the store only, and in the whitelist. -/
structure Kept (c : Config) (identity : Identity) (w : Whitelist) (o : Operator) : Prop where
  config : o.config = { c with internetFacing := w.toValue }
  identity : o.identity = identity
  keyed : o.store.Keyed

theorem enqueue_snd (o : Operator) (keys : Except Error (List Value)) :
    ∃ queue, (o.enqueue keys).2 = { o with queue } := by
  cases keys with
  | ok keys => exact ⟨_, rfl⟩
  | error e => exact ⟨o.queue, rfl⟩

theorem observe_snd (kind : ObjectKind) (type : EventType) (obj : Value) (hkeyed : o.store.Keyed) :
    ∃ store queue, (o.observe kind type obj).2 = { o with store, queue } ∧ store.Keyed := by
  unfold observe record
  cases hrecord : (if type = .deleted then o.store.delete kind obj else o.store.upsert kind obj) with
  | error e => exact ⟨o.store, o.queue, rfl, hkeyed⟩
  | ok r =>
    obtain ⟨old, store⟩ := r
    obtain ⟨queue, hqueue⟩ := enqueue_snd { o with store } (concernedKeys { o with store } kind type old obj)
    refine ⟨store, queue, hqueue, ?_⟩
    split at hrecord
    · exact hkeyed.delete hrecord
    · exact hkeyed.upsert hrecord

theorem observeConfigMap_snd (o : Operator) (type : EventType) (obj : Value) : ∃ queue,
    (o.observeConfigMap type obj).2 =
      { o with config := (configMapKeys o.config o.store type obj).1, queue } :=
  enqueue_snd _ _

/-- The latest whitelist is kept by every step. -/
theorem Kept.step {identity : Identity} (hrestricted : c.restrictScheme.holds = true)
    (hkept : Kept c identity w o) (hw : latest c hs = .ok w) (htexts : h.HasTexts)
    (hstep : Step (o, m) h (o', m')) :
    ∃ w', latest c (hs ++ [h]) = .ok w' ∧ Kept c identity w' o' := by
  cases hstep with
  | event _ _ kind type obj =>
    obtain ⟨store, queue, heq, hkeyed⟩ := observe_snd kind type obj hkept.keyed
    refine ⟨w, (latest_snoc_none rfl).trans hw, ?_⟩
    rw [heq]
    exact ⟨hkept.config, hkept.identity, hkeyed⟩
  | configMap _ _ type obj =>
    obtain ⟨queue, heq⟩ := observeConfigMap_snd o type obj
    rw [heq]
    have hsame : Trigger.announced? o.config type obj = Trigger.announced? c type obj := by
      rw [hkept.config]
      rfl
    cases hx : Trigger.announced? c type obj with
    | none =>
      refine ⟨w, (latest_snoc_none (h := .configMap type obj) hx).trans hw, ?_, hkept.identity, hkept.keyed⟩
      exact (configMapKeys_unannounced (hsame.trans hx)).trans hkept.config
    | some x =>
      obtain ⟨w', rfl⟩ : ∃ w', x = .ok w' := by
        unfold Trigger.announced? at hx
        split at hx
        · rw [← Option.some.inj hx]
          split
          · exact ⟨_, rfl⟩
          · exact parseWhitelist_isOk htexts.1 htexts.2
        · cases hx
      refine ⟨w', latest_snoc_some (h := .configMap type obj) hx, ?_, hkept.identity, hkept.keyed⟩
      have hstill : o.config.restrictScheme.holds = true := by
        rw [hkept.config]
        exact hrestricted
      refine (configMapKeys_announced hstill (hsame.trans hx)).trans ?_
      rw [hkept.config]
  | sync _ _ key g gate => exact ⟨w, (latest_snoc_none rfl).trans hw, hkept⟩

theorem Kept.run {identity : Identity} {s t : Operator × Memory} (hrestricted : c.restrictScheme.holds = true)
    (hkept : Kept c identity ∅ s.1) (htexts : ∀ h ∈ hs, h.HasTexts) (hrun : Run s hs t) :
    ∃ w, latest c hs = .ok w ∧ Kept c identity w t.1 := by
  induction hrun with
  | nil => exact ⟨∅, rfl, hkept⟩
  | snoc _ hstep ih =>
    obtain ⟨w, hw, hkept⟩ := ih fun h hmem => htexts h (List.mem_append_left _ hmem)
    exact hkept.step hrestricted hw (htexts _ (List.mem_append_right _ List.mem_cons_self)) hstep

/-! ## Syncs -/

theorem eq_createLoadBalancer {r : Request} {record : Record} (h : r.record? = .ok (some record))
    (hname : record.name = "create_load_balancer") : r = .createLoadBalancer record.args := by
  have hkept : ∀ (name : String) (args : Fields), Request.record?.kept name args = .ok (some record) →
      name = "create_load_balancer" ∧ args = record.args := by
    rintro name args ⟨⟩
    exact ⟨hname, rfl⟩
  cases r with
  | createLoadBalancer params => rw [(hkept _ _ h).2]
  | _ =>
    first
    | exact absurd (hkept _ _ h).1 (by decide)
    | exact (bind_eq_ok_iff.1 h).elim fun _ h => absurd (hkept _ _ h.2).1 (by decide)
    | cases h

/-- With a whitelist in the configuration its restriction is in force. -/
theorem restricted (hrestricted : o.config.restrictScheme.holds = true)
    (hw : o.config.internetFacing = w.toValue) (hkeyed : o.store.Keyed) (m : Memory) : Restricted o m w := by
  refine ⟨hw, fun key m' hstep => ?_, fun key m' hstep hrejected => ?_⟩
  · cases hstep with
    | sync _ _ _ g gate =>
      obtain ⟨new, hnew, hall⟩ :=
        (asks_syncOrWarn hrestricted hw : (syncOrWarn o.inputs key).Asks _).records_run g gate m
      refine ⟨new, hnew, fun record hmem hfaces => ?_⟩
      obtain ⟨r, hr, hrecord⟩ := hall record hmem
      rw [eq_createLoadBalancer hrecord hfaces.1] at hr
      obtain ⟨service, hwanted, ns, name, n, hnames, hlisted, hn, hname⟩ := hr hfaces.2
      have hfound := find?_of_wantedAt hwanted
      obtain ⟨k, name', names', rfl, rfl, hk, hin⟩ := hlisted
      exact ⟨service, k, name', n, hfound, hkeyed.objectKey_eq hfound hnames, hnames,
        ⟨k, name', names', rfl, rfl, hk, hin⟩, hn, hname⟩
  · cases hstep with
    | sync _ _ _ g gate =>
      obtain ⟨e, gate', hrun⟩ :=
        (givesUp_syncOrWarn hrestricted hw hrejected).run (fun r hr => hr.perform) g gate m
      rw [hrun]

/-- After any run of events and syncs the latest whitelist is in force, if the scheme is restricted and
there was none at first. -/
theorem run_restricted (hrun : Run (o, m) hs (o', m')) (hrestricted : o.config.restrictScheme.holds = true)
    (hnone : o.config.internetFacing = .object []) (hkeyed : o.store.Keyed) (htexts : ∀ h ∈ hs, h.HasTexts) :
    ∃ w, latest o.config hs = .ok w ∧ Restricted o' m' w := by
  have hkept : Kept o.config o.identity ∅ o :=
    ⟨by rw [show (∅ : Whitelist).toValue = _ from hnone.symm], rfl, hkeyed⟩
  obtain ⟨w, hw, hkept'⟩ := Kept.run (s := (o, m)) hrestricted hkept htexts hrun
  refine ⟨w, hw, restricted ?_ ?_ hkept'.keyed m'⟩
  · rw [hkept'.config]
    exact hrestricted
  · rw [hkept'.config]

/-- An operator that restricts the scheme of load balancers. -/
def restricting : Operator where
  config := {
    clusterName := .text "main", vpcId := .text "vpc-1", nameStem := .text "nlb"
    restrictScheme := .bool true }
  identity := mainIdentity

/-- The config map of the whitelist, on which `web` is listed for `default`. -/
def listingWeb : Value :=
  .object [
    ("metadata", .object [("namespace", .text "default"), ("name", .text "nlb-internet-facing-services")]),
    ("data", .object [("default", .text "web, api")])]

/-- The whitelist comes and goes after the Service came: the Service was on it and is rejected now. -/
theorem listed_then_rejected : ∃ o o',
    Run (restricting, {}) [.event .service .added (schemeService "internet-facing"),
      .configMap .added listingWeb] (o, {}) ∧
      Step (o, {}) (.configMap .deleted listingWeb) (o', {}) ∧
      (∃ w, w.Lists (.text "default") (.text "web") ∧ Restricted o {} w) ∧
      ∀ m', Step (o', {}) (.sync (.text "default/web")) (o', m') → m' = {} := by
  have hlisted : Run (restricting, {}) [.event .service .added (schemeService "internet-facing"),
      .configMap .added listingWeb] _ :=
    (Run.nil.snoc (.event _ _ _ _ _)).snoc (.configMap _ _ _ _)
  have hdeleted : Run (restricting, {}) [.event .service .added (schemeService "internet-facing"),
      .configMap .added listingWeb, .configMap .deleted listingWeb] _ := hlisted.snoc (.configMap _ _ _ _)
  have htexts : ∀ type, (Happening.configMap type listingWeb).HasTexts := by
    refine fun type => ⟨.inr ⟨_, rfl⟩, fun e he => ?_⟩
    rw [List.mem_singleton.1 he]
    exact ⟨_, rfl⟩
  have hevent : (Happening.event .service .added (schemeService "internet-facing")).HasTexts := trivial
  obtain ⟨w, hw, hrestricted⟩ := run_restricted hlisted rfl rfl Store.keyed_empty
    (List.forall_mem_cons.2 ⟨hevent, List.forall_mem_singleton.2 (htexts .added)⟩)
  obtain ⟨w', hw', hrestricted'⟩ := run_restricted hdeleted rfl rfl Store.keyed_empty
    (List.forall_mem_cons.2 ⟨hevent, List.forall_mem_cons.2
      ⟨htexts .added, List.forall_mem_singleton.2 (htexts .deleted)⟩⟩)
  refine ⟨_, _, hlisted, .configMap _ _ _ _, ⟨w, ?_, hrestricted⟩,
    fun m' hstep => hrestricted'.rejected _ m' hstep ?_⟩
  · obtain rfl : .ofList [("default", ["web", "api"])] = w := Except.ok.inj hw
    exact ⟨"default", "web", ["web", "api"], rfl, rfl, rfl, by decide⟩
  · obtain rfl : ∅ = w' := Except.ok.inj hw'
    refine ⟨schemeService "internet-facing", _, rfl, rfl, rfl, fun ns name _ ⟨k, _, _, _, _, hget, _⟩ => ?_⟩
    cases hget

end

end Balancer.Operator
