import Balancer.Cluster.Trigger
import Balancer.Converge.LoadBalancer
import Balancer.Proofs.Cluster.Object
import Balancer.Proofs.Value

/-!
# The whitelist

* `Whitelist.Lists w ns name` : a whitelist has the name for the namespace. `checkScheme_eq_ok_iff` : where
  the scheme is restricted, no other Service may face the internet;
* `announced?` : the whitelist that an event on the config map of the whitelist announces. It is kept in the
  configuration (`configMapKeys_announced`, `configMapKeys_unannounced`).
-/

namespace Balancer

set_option autoImplicit false

open Cluster Trigger

/-- A whitelist has a name for a namespace. -/
def Trigger.Whitelist.Lists (w : Whitelist) (ns name : Value) : Prop :=
  ∃ k n names, ns = .text k ∧ name = .text n ∧ w.get? k = some names ∧ n ∈ names

/-- Whether a config map is the one that holds the whitelist. -/
def Trigger.holdsWhitelist (c : Config) (obj : Value) : Bool :=
  (metaOf obj "name").same (.text whitelistName) && (metaOf obj "namespace").same c.restrictSchemeNamespace

/-- The whitelist that an event on the config map of the whitelist announces: what its data says,
none after a deletion. -/
def Trigger.announced? (c : Config) (type : EventType) (obj : Value) : Option (Except Error Whitelist) :=
  if holdsWhitelist c obj then some
    (if type = .deleted then .ok ∅ else parseWhitelist (Fields.get obj.fields "data")) else none

section

variable {c : Config} {store : Store} {type : EventType} {obj service ns name : Value} {w : Whitelist}
  {lb : LoadBalancerConfig}

/-! ## What it lists -/

theorem whitelisted_toValue_iff :
    (Converge.whitelisted w.toValue ns >>= fun names => names.has name) = .ok true ↔ w.Lists ns name := by
  have hnone : ∀ v : Value, ¬ (.ok (.list []) >>= fun names : Value => names.has v) = .ok true :=
    fun v h => nomatch h
  constructor
  · intro h
    cases ns with
    | text k =>
      have hget : (textList ((w.get? k).getD [])).has name = .ok true := by
        rw [← h]
        show _ = ((((w.map textList).get? k).getD (.list [])).has name)
        rw [Table.get?_map]
        cases w.get? k <;> rfl
      obtain ⟨n, hname, hn⟩ := Value.has_texts_iff.1 hget
      cases hk : w.get? k with
      | none =>
        rw [hk] at hn
        cases hn
      | some names =>
        rw [hk] at hn
        exact ⟨k, n, names, rfl, hname, hk, hn⟩
    | list vs => cases h
    | object fs => cases h
    | _ => exact (hnone name h).elim
  · rintro ⟨k, n, names, rfl, rfl, hk, hn⟩
    show ((((w.map textList).get? k).getD (.list [])).has (.text n)) = .ok true
    rw [Table.get?_map, hk]
    exact Value.has_texts_iff.2 ⟨n, rfl, hn⟩

/-- Where the scheme is restricted, only the Services on the whitelist may face the internet. -/
theorem checkScheme_eq_ok_iff (hrestricted : c.restrictScheme.holds = true)
    (hw : c.internetFacing = w.toValue) :
    Converge.checkScheme c service lb = .ok () ↔ lb.scheme.same (.text internetFacingScheme) = false ∨
      ∃ ns name, names service = .ok (ns, name) ∧ w.Lists ns name := by
  unfold Converge.checkScheme
  rw [hrestricted, hw, Bool.true_and]
  cases lb.scheme.same (.text internetFacingScheme) with
  | false => exact iff_of_true rfl (.inl rfl)
  | true =>
    simp only [if_true, Bool.true_eq_false, false_or]
    constructor
    · intro h
      obtain ⟨⟨ns, name⟩, hnames, h⟩ := bind_eq_ok_iff.1 h
      obtain ⟨listed, hlisted, h⟩ := bind_eq_ok_iff.1 h
      obtain ⟨b, hb, h⟩ := bind_eq_ok_iff.1 h
      cases b with
      | false => cases h
      | true => exact ⟨ns, name, hnames, whitelisted_toValue_iff.1 (bind_eq_ok_iff.2 ⟨listed, hlisted, hb⟩)⟩
    · rintro ⟨ns, name, hnames, hlists⟩
      obtain ⟨listed, hlisted, hhas⟩ := bind_eq_ok_iff.1 (whitelisted_toValue_iff.2 hlists)
      exact bind_eq_ok_iff.2 ⟨_, hnames, bind_eq_ok_iff.2
        ⟨listed, hlisted, bind_eq_ok_iff.2 ⟨true, hhas, rfl⟩⟩⟩

/-! ## Events -/

theorem isWhitelist_iff : isWhitelist c obj = .ok true ↔ holdsWhitelist c obj = true := by
  unfold holdsWhitelist
  rw [Bool.and_eq_true]
  constructor
  · intro h
    obtain ⟨part, hpart, h⟩ := bind_eq_ok_iff.1 h
    obtain ⟨name, hname, h⟩ := bind_eq_ok_iff.1 h
    rw [← metaOf_of_get hpart hname]
    cases hsame : name.same (.text whitelistName) with
    | false =>
      rw [hsame] at h
      cases h
    | true =>
      rw [hsame] at h
      obtain ⟨ns, hns, h⟩ := bind_eq_ok_iff.1 h
      rw [← metaOf_of_get hpart hns]
      exact ⟨rfl, Except.ok.inj h⟩
  · rintro ⟨hname, hns⟩
    have hthere : metaOf obj "name" ≠ .null := by
      rw [(Value.same_text_iff _ _).1 hname]
      exact nofun
    obtain ⟨fs, ms, rfl, hpart, hms⟩ := metadata_of_metaOf hthere
    have hmeta : ∀ k, metaOf (.object fs) k = Fields.get ms k :=
      fun k => congrArg (fun v => Fields.get (Value.fields v) k) hms
    rw [hmeta] at hname hns
    refine bind_eq_ok_iff.2 ⟨_, hpart, bind_eq_ok_iff.2 ⟨_, Value.get_object _ _, ?_⟩⟩
    rw [hname]
    exact bind_eq_ok_iff.2 ⟨_, Value.get_object _ _, congrArg Except.ok hns⟩

/-- An event on another config map leaves the whitelist as it is. -/
theorem configMapKeys_unannounced (h : announced? c type obj = none) :
    (configMapKeys c store type obj).1 = c := by
  have hnot : holdsWhitelist c obj = false := by
    rw [← Bool.not_eq_true]
    intro hholds
    rw [announced?, if_pos hholds] at h
    cases h
  unfold configMapKeys
  cases hwhitelist : isWhitelist c obj with
  | error e => cases c.restrictScheme.holds <;> rfl
  | ok b =>
    cases b with
    | false => cases c.restrictScheme.holds <;> rfl
    | true =>
      rw [isWhitelist_iff.1 hwhitelist] at hnot
      cases hnot

/-- What an event on the config map of the whitelist announces becomes the whitelist. -/
theorem configMapKeys_announced (hrestricted : c.restrictScheme.holds = true)
    (h : announced? c type obj = some (.ok w)) :
    (configMapKeys c store type obj).1 = { c with internetFacing := w.toValue } := by
  unfold announced? at h
  split at h
  · rename_i hholds
    have hafter : whitelistAfter type obj = .ok w := by
      rw [← Option.some.inj h]
      unfold whitelistAfter
      have hthere : metaOf obj "name" ≠ .null := by
        rw [(Value.same_text_iff _ _).1 (Bool.and_eq_true_iff.1 hholds).1]
        exact nofun
      obtain ⟨fs, ms, rfl, -, -⟩ := metadata_of_metaOf hthere
      rfl
    simp only [configMapKeys, hrestricted, if_true, isWhitelist_iff.2 hholds, hafter]
  · cases h

/-- Data that maps texts to texts, if there are any, can be read. -/
theorem parseWhitelist_isOk {data : Value} (h : data.IsPart)
    (htexts : ∀ e ∈ data.fields, ∃ t, e.2 = .text t) :
    ∃ w, parseWhitelist data = .ok w := by
  have hnames : ∀ e ∈ data.fields, ∃ row,
      (do return (e.1, ← whitelistNames e.2) : Except Error (String × List String)) = .ok row := by
    intro e he
    obtain ⟨t, ht⟩ := htexts e he
    have hread : ∃ s, (e.2.orElse (.text "")).textFor "split" = .ok s := by
      rw [ht, Value.orElse]
      split <;> exact ⟨_, rfl⟩
    obtain ⟨s, hs⟩ := hread
    exact ⟨_, bind_eq_ok_iff.2 ⟨_, bind_eq_ok_iff.2 ⟨s, hs, rfl⟩, rfl⟩⟩
  obtain ⟨rows, hrows⟩ := isOk_mapM hnames
  refine ⟨.ofList rows, bind_eq_ok_iff.2 ⟨data.fields, ?_, bind_eq_ok_iff.2 ⟨rows, hrows, rfl⟩⟩⟩
  rw [h.orElse_eq]
  rfl

end

end Balancer
