import Balancer.Proofs.Annotations.Pairs
import Balancer.Proofs.Config
import Balancer.Proofs.Errors

/-!
# Configurations from environments

* `Readable`, `Checked`, `Admissible` : environments whose variables can be read, those that pass the checks
  before a name stem is made, and those that pass all of them;
* `Stemless env strays` : a stem has to be made of the name of the cluster, and the name has
  surrogates that cannot be encoded;
* `Given env given` : what is read of an environment, before it is checked (`given_of_ofEnvironment`);
* `Usable env c` : what holds of the configuration of an environment (`Given.usable`);
* `validateWith_again` : a valid configuration is valid as it is;
* `load_spec` : a configuration is made of the admissible environments, all others are refused. The exception
  are names of clusters that cannot be encoded: those end with the error of the encoding
  (`unencodable_not_refused`), and no environment of texts does (`not_stemless_texts`).
-/

namespace Balancer

set_option autoImplicit false

theorem Digest.length_crc32Hex (s : String) : (Digest.crc32Hex s).length = 8 := by
  have hdigits : (Nat.toDigits 16 (Digest.crc32 s.toUTF8.toList).toNat).length ≤ 8 :=
    (Nat.length_toDigits_le_iff (by decide) (by decide)).2 (UInt32.toNat_lt _)
  unfold Digest.crc32Hex Text.hex
  simp only [String.length_ofList, List.length_append, List.length_replicate]
  omega

namespace Config

/-- The value of a variable, or the usual one if it is not set. -/
def setting (env : Table String String) (name usual : String) : String := (env.get? name).getD usual

/-- A text that stands for a truth value. -/
def IsTruth (s : String) : Prop := Text.lower (Text.strip s) ∈ trueWords ++ falseWords

instance (s : String) : Decidable (IsTruth s) :=
  inferInstanceAs (Decidable (Text.lower (Text.strip s) ∈ trueWords ++ falseWords))

/-- An environment whose variables can be read. -/
structure Readable (env : Table String String) : Prop where
  tags : ∀ part ∈ Text.pieces ',' (setting env "DEFAULT_TAGS" ""), ¬ Annotations.Malformed part
  restrictScheme : IsTruth (setting env "NLB_CONTROLLER_RESTRICT_SCHEME" "false")
  workers : ∃ n, Text.readInteger (setting env "MAX_CONCURRENT_RECONCILES" "1") = some n
  timeout : ∃ x, Text.readFraction (setting env "RECONCILE_TIMEOUT" "300") = some x
  resyncInterval : ∃ x, Text.readFraction (setting env "RESYNC_INTERVAL" "600") = some x
  webhook : IsTruth (setting env "ENABLE_WEBHOOK" "false")

/-- An environment that passes the checks before a name stem is made. -/
structure Checked (env : Table String String) : Prop extends Readable env where
  targetType : setting env "NLB_TARGET_TYPE" "ip" ∈ ["instance", "ip", "pod"]
  backendProtocol : setting env "NLB_BACKEND_PROTOCOL" "TCP" ∈ ["TCP", "UDP"]
  clusterName : setting env "K8S_CLUSTER_NAME" "" ≠ ""
  vpcId : setting env "AWS_VPC_ID" "" ≠ ""
  nameStem : (setting env "NLB_NAME_PREFIX" "").length ≤ 12

/-- An environment that passes all checks. -/
structure Admissible (env : Table String String) : Prop extends Checked env where
  enough : ∀ n, Text.readInteger (setting env "MAX_CONCURRENT_RECONCILES" "1") = some n → 1 ≤ n

/-- No stem is given, and none can be made: the name of the cluster has surrogates that cannot be encoded. -/
structure Stemless (env : Environment) (strays : Text.Strays) : Prop where
  notGiven : setting env.shown "NLB_NAME_PREFIX" "" = ""
  unencodable : env.clusterName = .error (.mismatch (.unencodable strays))

/-- What is read of an environment. -/
structure Given (env : Table String String) (given : Config) : Prop where
  targetType : given.targetType = .text (setting env "NLB_TARGET_TYPE" "ip")
  backendProtocol : given.backendProtocol = .text (setting env "NLB_BACKEND_PROTOCOL" "TCP")
  clusterName : given.clusterName = .text (setting env "K8S_CLUSTER_NAME" "")
  vpcId : given.vpcId = .text (setting env "AWS_VPC_ID" "")
  nameStem : given.nameStem = .text (setting env "NLB_NAME_PREFIX" "")
  workers : ∃ n, Text.readInteger (setting env "MAX_CONCURRENT_RECONCILES" "1") = some n ∧
    given.workers = .int n

/-- The configuration of an environment: it has a cluster and a VPC, a short stem that is the given one or the
one of the cluster, words of those that are allowed, and at least one worker. -/
structure Usable (env : Table String String) (c : Config) : Prop where
  clusterName : ∃ s, env.get? "K8S_CLUSTER_NAME" = some s ∧ s ≠ "" ∧ c.clusterName = .text s
  vpcId : ∃ s, env.get? "AWS_VPC_ID" = some s ∧ s ≠ "" ∧ c.vpcId = .text s
  nameStem : ∃ s, c.nameStem = .text s ∧ 1 ≤ s.length ∧ s.length ≤ 12 ∧
    (env.get? "NLB_NAME_PREFIX" = some s ∨ setting env "NLB_NAME_PREFIX" "" = "" ∧
      s = stemOf (setting env "K8S_CLUSTER_NAME" ""))
  targetType : c.targetType = .text "instance" ∨ c.targetType = .text "ip"
  backendProtocol : c.backendProtocol = .text "TCP" ∨ c.backendProtocol = .text "UDP"
  workers : ∃ n, c.workers = .int n ∧ 1 ≤ n

section

variable {vars : Table String String} {env : Environment} {given c : Config}
  {encoded : Except Error String} {name s : String}

/-! ## Variables -/

theorem isOk_readTruth_iff : (∃ b, readTruth name s = .ok b) ↔ IsTruth s := by
  unfold readTruth IsTruth
  dsimp only
  rw [List.mem_append]
  by_cases htrue : Text.lower (Text.strip s) ∈ trueWords
  · rw [if_pos htrue]
    exact iff_of_true ⟨_, rfl⟩ (.inl htrue)
  · rw [if_neg htrue]
    by_cases hfalse : Text.lower (Text.strip s) ∈ falseWords
    · rw [if_pos hfalse]
      exact iff_of_true ⟨_, rfl⟩ (.inr hfalse)
    · rw [if_neg hfalse]
      exact iff_of_false nofun (not_or.2 ⟨htrue, hfalse⟩)

theorem readNumber_eq_ok_iff {α : Type} {read : String → Option α} {x : α} :
    readNumber read name s = .ok x ↔ read s = some x := by
  unfold readNumber
  cases read s <;> simp

/-- What is read of an environment, and that it could be read. -/
theorem given_of_ofEnvironment (h : ofEnvironment vars = .ok given) : Given vars given ∧ Readable vars := by
  obtain ⟨tags, htags, h⟩ := bind_eq_ok_iff.1 h
  obtain ⟨restrict, hrestrict, h⟩ := bind_eq_ok_iff.1 h
  obtain ⟨workers, hworkers, h⟩ := bind_eq_ok_iff.1 h
  obtain ⟨timeout, htimeout, h⟩ := bind_eq_ok_iff.1 h
  obtain ⟨resync, hresync, h⟩ := bind_eq_ok_iff.1 h
  obtain ⟨webhook, hwebhook, h⟩ := bind_eq_ok_iff.1 h
  cases h
  exact ⟨⟨rfl, rfl, rfl, rfl, rfl, workers, readNumber_eq_ok_iff.1 hworkers, rfl⟩,
    Annotations.isOk_readPairs_iff.1 ⟨_, htags⟩,
    isOk_readTruth_iff.1 ⟨_, hrestrict⟩, ⟨_, readNumber_eq_ok_iff.1 hworkers⟩,
    ⟨_, readNumber_eq_ok_iff.1 htimeout⟩,
    ⟨_, readNumber_eq_ok_iff.1 hresync⟩, isOk_readTruth_iff.1 ⟨_, hwebhook⟩⟩

theorem isOk_ofEnvironment (h : Readable vars) : ∃ given, ofEnvironment vars = .ok given := by
  obtain ⟨tags, htags⟩ := Annotations.isOk_readPairs_iff.2 h.tags
  obtain ⟨restrict, hrestrict⟩ := isOk_readTruth_iff.2 h.restrictScheme
  obtain ⟨workers, hworkers⟩ := h.workers
  obtain ⟨timeout, htimeout⟩ := h.timeout
  obtain ⟨resync, hresync⟩ := h.resyncInterval
  obtain ⟨webhook, hwebhook⟩ := isOk_readTruth_iff.2 h.webhook
  exact ⟨_, bind_eq_ok_iff.2 ⟨_, htags, bind_eq_ok_iff.2
    ⟨_, hrestrict, bind_eq_ok_iff.2 ⟨_, readNumber_eq_ok_iff.2 hworkers,
    bind_eq_ok_iff.2 ⟨_, readNumber_eq_ok_iff.2 htimeout, bind_eq_ok_iff.2 ⟨_, readNumber_eq_ok_iff.2 hresync,
      bind_eq_ok_iff.2 ⟨_, hwebhook, rfl⟩⟩⟩⟩⟩⟩⟩

/-! ## Surrogates -/

theorem Environment.shown_texts (vars : Table String String) : Environment.shown vars = vars := by
  simp [shown, Table.map, Function.comp_def]

/-- A name that is encoded is shown as it is. -/
theorem setting_of_clusterName (h : env.clusterName = .ok s) :
    setting env.shown "K8S_CLUSTER_NAME" "" = s := by
  have htext := Text.Raw.text_eq_ok_iff.1 (mapError_eq_ok_iff.1 h)
  rw [setting, Environment.shown, Table.get?_map]
  cases hget : env.get? "K8S_CLUSTER_NAME" with
  | none =>
    rw [hget] at htext
    simpa [Text.Raw.ofText] using htext
  | some raw =>
    rw [hget] at htext
    rw [show raw = .ofText s from htext]
    exact Text.Raw.shown_ofText s

/-- Texts can be encoded. -/
theorem not_stemless_texts (vars : Table String String) (strays : Text.Strays) : ¬ Stemless vars strays := by
  rintro ⟨-, h⟩
  rw [Environment.clusterName, Table.get?_map] at h
  cases hget : vars.get? "K8S_CLUSTER_NAME" with
  | none =>
    rw [hget] at h
    cases h
  | some text =>
    rw [hget, Option.map_some, Option.getD_some, Text.Raw.text_ofText] at h
    cases h

/-! ## Validation -/

theorem isOneOf_currentTargetType_iff :
    (currentTargetType (.text s)).isOneOf targetTypes = true ↔ s ∈ ["instance", "ip", "pod"] := by
  unfold currentTargetType
  by_cases hpod : s = "pod"
  · subst hpod
    decide
  · have hsame : ¬ (Value.text s).same (.text "pod") = true := by simpa using hpod
    rw [if_neg hsame]
    simp [Value.isOneOf, targetTypes, hpod]

theorem holds_text_iff (s : String) : (Value.text s).holds = true ↔ s ≠ "" := by simp [Value.holds]

theorem stemOr_text (stem : String) (encoded : Except Error String) :
    stemOr (.text stem) encoded =
      if stem = "" then (fun s => .text (stemOf s)) <$> encoded else .ok (.text stem) := by
  by_cases h : stem = ""
  · subst h
    cases encoded <;> rfl
  · rw [if_neg h]
    exact if_pos ((holds_text_iff stem).2 h)

/-- A stem is given, or it can be made. -/
theorem Given.isOk_stemOr_iff (h : Given env.shown given) :
    (∃ stem, stemOr given.nameStem env.clusterName = .ok stem) ↔ ¬ ∃ strays, Stemless env strays := by
  rw [h.nameStem, stemOr_text]
  by_cases hstem : setting env.shown "NLB_NAME_PREFIX" "" = ""
  · rw [if_pos hstem]
    cases hname : ((env.get? "K8S_CLUSTER_NAME").getD []).text with
    | error strays =>
      have hcluster : env.clusterName = .error (.mismatch (.unencodable strays)) := by
        rw [Environment.clusterName, hname]
        rfl
      rw [hcluster]
      exact iff_of_false nofun (not_not_intro ⟨strays, hstem, hcluster⟩)
    | ok s =>
      have hcluster : env.clusterName = .ok s := by
        rw [Environment.clusterName, hname]
        rfl
      rw [hcluster]
      refine iff_of_true ⟨_, rfl⟩ ?_
      rintro ⟨strays, -, herror⟩
      rw [hcluster] at herror
      cases herror
  · rw [if_neg hstem]
    exact iff_of_true ⟨_, rfl⟩ fun ⟨_, hless⟩ => hstem hless.notGiven

/-- The checks before a stem is made, of what is read of an environment. -/
theorem Given.checked_iff (h : Given vars given) (hread : Readable vars) :
    Checked vars ↔
      (currentTargetType given.targetType).isOneOf targetTypes = true ∧
      given.backendProtocol.isOneOf backendProtocols = true ∧
      given.clusterName.holds = true ∧ given.vpcId.holds = true ∧
      (setting vars "NLB_NAME_PREFIX" "").length ≤ maxStemLength := by
  have hprotocol : ∀ s, (Value.text s).isOneOf backendProtocols = true ↔ s ∈ ["TCP", "UDP"] :=
    fun s => by simp [Value.isOneOf, backendProtocols]
  rw [h.targetType, h.backendProtocol, h.clusterName, h.vpcId, isOneOf_currentTargetType_iff, hprotocol,
    holds_text_iff, holds_text_iff]
  constructor
  · exact fun hc => ⟨hc.targetType, hc.backendProtocol, hc.clusterName, hc.vpcId, hc.nameStem⟩
  · rintro ⟨htype, hprotocol, hcluster, hvpc, hle⟩
    exact ⟨hread, htype, hprotocol, hcluster, hvpc, hle⟩

theorem Given.length_nameStem (h : Given vars given) :
    given.nameStem.length = .ok (setting vars "NLB_NAME_PREFIX" "").length := by
  rw [h.nameStem]
  rfl

/-- After these checks, the stem and the workers are left. -/
theorem Given.validateWith_of_checked (h : Given vars given) (hc : Checked vars) :
    given.validateWith encoded = do
      let nameStem ← stemOr given.nameStem encoded
      if ← given.workers.before (.int 1) then throw (.configuration .noWorkers)
      return { given with targetType := currentTargetType given.targetType, nameStem } := by
  obtain ⟨htype, hprotocol, hcluster, hvpc, hle⟩ := (h.checked_iff hc.toReadable).1 hc
  unfold validateWith
  simp only [htype, hprotocol, hcluster, hvpc, h.length_nameStem]
  exact if_neg (Nat.not_lt.2 hle)

/-- What is read is valid just if the environment is admissible and there is a stem. -/
theorem Given.isOk_validateWith_iff (h : Given vars given) (hread : Readable vars) :
    (∃ c, given.validateWith encoded = .ok c) ↔
      Admissible vars ∧ ∃ stem, stemOr given.nameStem encoded = .ok stem := by
  obtain ⟨n, hn, hworkers⟩ := h.workers
  constructor
  · rintro ⟨c, hc⟩
    obtain ⟨htype, hprotocol, hcluster, hvpc, k, hk, hle, stem, hstem, hbefore, -⟩ :=
      validateWith_eq_ok_iff.1 hc
    rw [h.length_nameStem] at hk
    rw [hworkers, Value.before_int] at hbefore
    cases hk
    refine ⟨⟨(h.checked_iff hread).2 ⟨htype, hprotocol, hcluster, hvpc, hle⟩, fun m hm => ?_⟩, stem, hstem⟩
    rw [hn] at hm
    cases hm
    have hless := of_decide_eq_false (Except.ok.inj hbefore)
    omega
  · rintro ⟨ha, stem, hstem⟩
    have hless := ha.enough n hn
    rw [h.validateWith_of_checked ha.toChecked, hstem, hworkers, Value.before_int, decide_eq_false (by omega)]
    exact ⟨_, rfl⟩

/-- What is read of an environment is of the shape that is expected. Where a stem can be made, only
values can be refused. -/
theorem Given.configuration_validateWith (h : Given vars given) (hread : Readable vars)
    (hstem : Checked vars → ∃ stem, stemOr given.nameStem encoded = .ok stem) :
    Errs Error.IsConfiguration (given.validateWith encoded) := by
  obtain ⟨n, -, hworkers⟩ := h.workers
  by_cases hc : Checked vars
  · obtain ⟨stem, hstem⟩ := hstem hc
    rw [h.validateWith_of_checked hc, hstem, hworkers]
    simp [Value.before_int]
  · -- the stem is made after all checks, so one of them fails before
    have hfails : (currentTargetType given.targetType).isOneOf targetTypes = true →
        given.backendProtocol.isOneOf backendProtocols = true → given.clusterName.holds = true →
        given.vpcId.holds = true → (setting vars "NLB_NAME_PREFIX" "").length ≤ maxStemLength →
        Errs Error.IsConfiguration (stemOr given.nameStem encoded) :=
      fun htype hprotocol hcluster hvpc hle =>
        absurd ((h.checked_iff hread).2 ⟨htype, hprotocol, hcluster, hvpc, hle⟩) hc
    unfold validateWith
    simpa [h.length_nameStem, hworkers, Value.before_int] using hfails

theorem length_stemOf (cluster : String) : (stemOf cluster).length = 8 := Digest.length_crc32Hex cluster

theorem exists_get?_of_setting (h : setting vars name "" ≠ "") :
    ∃ s, vars.get? name = some s ∧ s ≠ "" ∧ setting vars name "" = s := by
  unfold setting at h ⊢
  cases hget : vars.get? name with
  | none => simp [hget] at h
  | some s => exact ⟨s, rfl, by simpa [hget] using h, rfl⟩

theorem Given.usable (h : Given env.shown given) (ha : Admissible env.shown)
    (hc : given.validateWith env.clusterName = .ok c) : Usable env.shown c := by
  have hwords := words_of_validateWith hc
  obtain ⟨cluster, hcluster, hne, hclusterEq⟩ := exists_get?_of_setting ha.clusterName
  obtain ⟨vpc, hvpc, hvpcNe, hvpcEq⟩ := exists_get?_of_setting ha.vpcId
  obtain ⟨n, hn, hworkers⟩ := h.workers
  obtain ⟨-, -, -, -, -, -, -, stem, hstemOr, -, rfl⟩ := validateWith_eq_ok_iff.1 hc
  refine ⟨⟨cluster, hcluster, hne, ?_⟩, ⟨vpc, hvpc, hvpcNe, ?_⟩, ?_, ?_, ?_, n, hworkers, ha.enough n hn⟩
  · rw [← hclusterEq]
    exact h.clusterName
  · rw [← hvpcEq]
    exact h.vpcId
  · rw [h.nameStem, stemOr_text] at hstemOr
    by_cases hstem : setting env.shown "NLB_NAME_PREFIX" "" = ""
    · rw [if_pos hstem] at hstemOr
      obtain ⟨s, hs, rfl⟩ := map_eq_ok_iff.1 hstemOr
      rw [← setting_of_clusterName hs]
      exact ⟨_, rfl, by simp [length_stemOf], by simp [length_stemOf], .inr ⟨hstem, rfl⟩⟩
    · rw [if_neg hstem] at hstemOr
      obtain ⟨s, hs, hsNe, hsEq⟩ := exists_get?_of_setting hstem
      have hle := ha.nameStem
      rw [hsEq] at hle hstemOr
      cases hstemOr
      exact ⟨s, rfl, Nat.one_le_iff_ne_zero.2 (mt String.length_eq_zero_iff.1 hsNe), hle, .inl hs⟩
  · simpa [targetTypes] using hwords.1
  · simpa [backendProtocols] using hwords.2

/-! ## Valid configurations -/

theorem currentTargetType_of_isOneOf {type : Value}
    (h : (currentTargetType type).isOneOf targetTypes = true) :
    currentTargetType (currentTargetType type) = currentTargetType type := by
  obtain ⟨w, hw, htype⟩ := Value.isOneOf_iff.1 h
  have hother : ¬ (Value.text w).same (.text "pod") = true := by
    have hne : w ≠ "pod" := by
      rintro rfl
      simp [targetTypes] at hw
    simpa using hne
  rw [htype, currentTargetType, if_neg hother]

/-- A stem that is filled in says something, and it is as short as any. It stands for itself, whatever
the name of the cluster. -/
theorem stemOr_of_stemOr {stem stem' : Value} {n : Nat} (h : stemOr stem encoded = .ok stem')
    (hn : stem.length = .ok n) (hle : n ≤ maxStemLength) (encoded' : Except Error String) :
    stemOr stem' encoded' = .ok stem' ∧ ∃ n', stem'.length = .ok n' ∧ n' ≤ maxStemLength := by
  unfold stemOr at h ⊢
  by_cases hholds : stem.holds = true
  · rw [if_pos hholds] at h
    cases h
    exact ⟨if_pos hholds, n, hn, hle⟩
  · rw [if_neg hholds] at h
    obtain ⟨name, -, h⟩ := bind_eq_ok_iff.1 h
    cases h
    have hlength := length_stemOf name
    have hne : stemOf name ≠ "" := by
      intro hempty
      rw [hempty] at hlength
      cases hlength
    refine ⟨if_pos ((holds_text_iff _).2 hne), 8, congrArg Except.ok hlength, by decide⟩

/-- A valid configuration is valid as it is, whatever is known of the name of its cluster. -/
theorem validateWith_again (h : given.validateWith encoded = .ok c) (encoded' : Except Error String) :
    c.validateWith encoded' = .ok c := by
  obtain ⟨htype, hprotocol, hcluster, hvpc, n, hn, hle, stem, hstem, hworkers, rfl⟩ :=
    validateWith_eq_ok_iff.1 h
  obtain ⟨hagain, n', hn', hle'⟩ := stemOr_of_stemOr hstem hn hle encoded'
  have htwice := currentTargetType_of_isOneOf htype
  refine validateWith_eq_ok_iff.2 ⟨?_, hprotocol, hcluster, hvpc, n', hn', hle', stem, hagain, hworkers, ?_⟩
  · show (currentTargetType (currentTargetType given.targetType)).isOneOf targetTypes = true
    rw [htwice]
    exact htype
  · simp only [htwice]

/-! ## Environments -/

/-- What is loaded is read of the environment, and then valid. -/
theorem load_eq_ok_iff :
    load env = .ok c ↔ ∃ given, ofEnvironment env.shown = .ok given ∧
      given.validateWith env.clusterName = .ok c := by
  unfold load
  simp only [bind_eq_ok_iff, mapError_eq_ok_iff]

/-- An environment is refused, unless it passes the checks before a stem is made, and
the stem cannot be made. -/
theorem configuration_load (h : ¬ ∃ strays, Checked env.shown ∧ Stemless env strays) :
    Errs Error.IsConfiguration (load env) := by
  refine errs_bind.2 ⟨errs_mapError, fun given hgiven => ?_⟩
  obtain ⟨hgiven, hread⟩ := given_of_ofEnvironment (mapError_eq_ok_iff.1 hgiven)
  refine hgiven.configuration_validateWith hread fun hc => hgiven.isOk_stemOr_iff.2 ?_
  rintro ⟨strays, hless⟩
  exact h ⟨strays, hc, hless⟩

theorem isOk_load_iff : (∃ c, load env = .ok c) ↔ Admissible env.shown ∧ ¬ ∃ strays, Stemless env strays := by
  constructor
  · rintro ⟨c, hc⟩
    obtain ⟨given, hgiven, hvalid⟩ := load_eq_ok_iff.1 hc
    obtain ⟨h, hread⟩ := given_of_ofEnvironment hgiven
    rw [← h.isOk_stemOr_iff]
    exact (h.isOk_validateWith_iff hread).1 ⟨c, hvalid⟩
  · rintro ⟨ha, hless⟩
    obtain ⟨given, hgiven⟩ := isOk_ofEnvironment ha.toReadable
    obtain ⟨h, hread⟩ := given_of_ofEnvironment hgiven
    obtain ⟨c, hvalid⟩ := (h.isOk_validateWith_iff hread).2 ⟨ha, h.isOk_stemOr_iff.2 hless⟩
    exact ⟨c, load_eq_ok_iff.2 ⟨given, hgiven, hvalid⟩⟩

theorem usable_of_load (h : load env = .ok c) : Usable env.shown c := by
  obtain ⟨given, hgiven, hvalid⟩ := load_eq_ok_iff.1 h
  exact (given_of_ofEnvironment hgiven).1.usable (isOk_load_iff.1 ⟨c, h⟩).1 hvalid

/-- Where the stem cannot be made, the error of the encoding gets through. -/
theorem load_of_stemless {strays : Text.Strays} (hc : Checked env.shown) (h : Stemless env strays) :
    load env = .error (.mismatch (.unencodable strays)) := by
  obtain ⟨given, hgiven⟩ := isOk_ofEnvironment hc.toReadable
  obtain ⟨hread, -⟩ := given_of_ofEnvironment hgiven
  unfold load
  rw [hgiven]
  show given.validateWith env.clusterName = _
  rw [hread.validateWith_of_checked hc, hread.nameStem, stemOr_text, if_pos h.notGiven, h.unencodable]
  rfl

end

/-- A configuration is made of each admissible environment, and others are refused by a configuration
error, but for one case: if a stem has to be made of a name that cannot be encoded, the error of the
encoding gets through. What is made can be used, and a configuration that passed validation passes it
again, without a change. -/
theorem load_spec (env : Environment) :
    (Admissible env.shown → (¬ ∃ strays, Stemless env strays) → ∃ c, load env = .ok c ∧ Usable env.shown c) ∧
    (¬ Admissible env.shown → (¬ ∃ strays, Checked env.shown ∧ Stemless env strays) →
      ∃ fault, load env = .error (.configuration fault)) ∧
    (∀ strays, Checked env.shown → Stemless env strays →
      load env = .error (.mismatch (.unencodable strays))) ∧
    ∀ (given c : Config) (encoded encoded' : Except Error String),
      given.validateWith encoded = .ok c → c.validateWith encoded' = .ok c := by
  refine ⟨fun ha hless => ?_, fun ha hless => ?_, fun strays => load_of_stemless,
    fun given c encoded encoded' h => validateWith_again h encoded'⟩
  · obtain ⟨c, hc⟩ := isOk_load_iff.2 ⟨ha, hless⟩
    exact ⟨c, hc, usable_of_load hc⟩
  · cases hload : load env with
    | error e =>
      obtain ⟨fault, rfl⟩ := configuration_load hless e hload
      exact ⟨fault, rfl⟩
    | ok c => exact absurd (isOk_load_iff.1 ⟨c, hload⟩).1 ha

/-- An environment without a stem, and with the older word for a target type. -/
def sampleEnvironment : Table String String := .ofList [("K8S_CLUSTER_NAME", "main"), ("AWS_VPC_ID", "vpc-1"),
  ("DEFAULT_TAGS", "team = a,"), ("NLB_TARGET_TYPE", "pod"), ("MAX_CONCURRENT_RECONCILES", " 2 "),
  ("ENABLE_WEBHOOK", "Yes")]

theorem admissible_sampleEnvironment : Admissible sampleEnvironment where
  tags := by decide
  restrictScheme := by decide
  workers := ⟨2, by decide⟩
  timeout := ⟨_, rfl⟩
  resyncInterval := ⟨_, rfl⟩
  webhook := by decide
  targetType := by decide
  backendProtocol := by decide
  clusterName := by decide
  vpcId := by decide
  nameStem := by decide
  enough n hn := by
    have htwo : Text.readInteger (setting sampleEnvironment "MAX_CONCURRENT_RECONCILES" "1") = some 2 := by
      decide
    rw [htwo] at hn
    cases hn
    decide

/-- An environment whose cluster has a byte in its name that is no text, and that has no stem. -/
def byteEnvironment : Environment :=
  .ofList [("K8S_CLUSTER_NAME", Text.Raw.ofText "caf" ++ [.surrogate 0xDCE9 rfl]),
    ("AWS_VPC_ID", Text.Raw.ofText "vpc-1")]

theorem checked_byteEnvironment : Checked byteEnvironment.shown where
  tags := by decide
  restrictScheme := by decide
  workers := ⟨1, by decide⟩
  timeout := ⟨_, rfl⟩
  resyncInterval := ⟨_, rfl⟩
  webhook := by decide
  targetType := by decide
  backendProtocol := by decide
  clusterName := by decide
  vpcId := by decide
  nameStem := by decide

theorem stemless_byteEnvironment : Stemless byteEnvironment ⟨3, 0xDCE9, 1⟩ := ⟨rfl, rfl⟩

theorem load_spec_sample :
    (∃ c, load sampleEnvironment = .ok c ∧ Usable sampleEnvironment c ∧ c.validate = .ok c) ∧
    (∃ fault, load (sampleEnvironment.insert "AWS_VPC_ID" "") = .error (.configuration fault)) ∧
    load byteEnvironment = .error (.mismatch (.unencodable ⟨3, 0xDCE9, 1⟩)) := by
  have hless : ∀ vars : Table String String, ¬ ∃ strays, Stemless vars strays :=
    fun vars ⟨strays, h⟩ => not_stemless_texts vars strays h
  have hshown := Environment.shown_texts
  refine ⟨?_, ?_, (load_spec byteEnvironment).2.2.1 _ checked_byteEnvironment stemless_byteEnvironment⟩
  · obtain ⟨hmade, -, -, hagain⟩ := load_spec sampleEnvironment
    rw [hshown] at hmade
    obtain ⟨c, hc, husable⟩ := hmade admissible_sampleEnvironment (hless _)
    obtain ⟨given, -, hvalid⟩ := load_eq_ok_iff.1 hc
    exact ⟨c, hc, husable, hagain _ _ _ _ hvalid⟩
  · refine (load_spec _).2.1 ?_ fun ⟨strays, _, h⟩ => hless _ ⟨strays, h⟩
    rw [hshown]
    exact fun h => h.vpcId rfl

/-- The environment with a byte that is no text is neither refused as such nor made into a configuration. -/
theorem unencodable_not_refused :
    ¬ ∀ env : Environment, (∃ c, load env = .ok c ∧ Usable env.shown c) ∨
      ∃ fault, load env = .error (.configuration fault) := by
  intro h
  have hload := load_of_stemless checked_byteEnvironment stemless_byteEnvironment
  rcases h byteEnvironment with ⟨c, hc, -⟩ | ⟨fault, hfault⟩
  · rw [hload] at hc
    cases hc
  · rw [hload] at hfault
    cases hfault

end Config

end Balancer
