import Balancer.Proofs.Annotations.Order
import Balancer.Proofs.Config
import Balancer.Proofs.Errors
import Balancer.Proofs.Table
import Balancer.Proofs.Text

/-!
# Settings from annotations

Where annotations are texts, reading them either refuses one of them or gives settings on
which the rest can rely.

* `configuration_parse` : all that can go wrong is a configuration error;
* `Sound` : what holds of the settings that are read (`sound_of_parse`). `get?_parse` : the actions are
  those that are declared;
* `Table.under` : the annotations of a domain. They are all that counts (`parse_under`), and their order does
  not but for which unreadable action is named;
* `parse_sound` : all of it together.
-/

namespace Balancer

set_option autoImplicit false

/-- The annotations of a domain. -/
def Table.under {β : Type} (domain : String) (a : Table String β) : Table String β :=
  a.filter fun k _ => Text.startsWith (domain ++ "/") k

namespace Annotations

variable {a : Table String String} {domain name : String} {v : Value}

theorem raw_toTextObject (domain name : String) (a : Table String String) :
    raw domain name a.toTextObject = .ok (((a.get? (key domain name)).map .text).getD .null) := by
  show raw domain name (.object (a.map Value.text).entries) = _
  rw [raw_object, ← Table.get?_map]
  rfl

theorem forall_text (a : Table String String) : ∀ e ∈ (a.map Value.text).entries, ∃ s, e.2 = .text s := by
  intro e he
  obtain ⟨f, -, rfl⟩ := List.mem_map.1 he
  exact ⟨f.2, rfl⟩

theorem text_of_raw (h : raw domain name a.toTextObject = .ok v) : v = .null ∨ ∃ s, v = .text s :=
  texts_of_raw (forall_text a) h

/-! ## What can go wrong -/

theorem configuration_invalid {α : Type} (domain name : String) (v : Value) :
    Errs Error.IsConfiguration (invalid domain name v : Except Error α) :=
  errs_error.2 (Error.isConfiguration_configuration _)

theorem configuration_raw (domain name : String) (a : Table String String) :
    Errs Error.IsConfiguration (raw domain name a.toTextObject) := by
  rw [raw_toTextObject]
  exact errs_ok _

/-- A text that is no integer is unreadable. -/
theorem isUnreadable_of_integer {s : String} {e : Error} (h : (Value.text s).integer = .error e) :
    ∃ m, e = .mismatch m ∧ isUnreadable m = true := by
  unfold Value.integer at h
  dsimp only at h
  split at h
  · cases h
  · cases h
    exact ⟨_, rfl, rfl⟩
  · cases h
    exact ⟨_, rfl, rfl⟩

theorem configuration_integer? (domain name : String) (a : Table String String) :
    Errs Error.IsConfiguration (integer? domain name a.toTextObject) := by
  refine errs_bind.2 ⟨configuration_raw domain name a, fun v hv => ?_⟩
  rcases text_of_raw hv with rfl | ⟨s, rfl⟩
  · exact errs_pure _
  · dsimp only
    cases hn : (Value.text s).integer with
    | ok n => exact errs_pure _
    | error e =>
      obtain ⟨m, rfl, hm⟩ := isUnreadable_of_integer hn
      dsimp only
      rw [if_pos hm]
      exact configuration_invalid _ _ _

theorem configuration_slice (domain name : String) (a : Table String String) :
    Errs Error.IsConfiguration (slice domain name a.toTextObject) := by
  refine errs_bind.2 ⟨configuration_raw domain name a, fun v hv => ?_⟩
  rcases text_of_raw hv with rfl | ⟨s, rfl⟩
  · exact errs_pure _
  · exact errs_pure _

theorem configuration_pairs (domain name : String) (a : Table String String) :
    Errs Error.IsConfiguration (pairs domain name a.toTextObject) :=
  errs_bind.2 ⟨configuration_slice domain name a, fun _ _ => errs_mapError⟩

/-! ## What is read -/

/-- The parts of a list are not blank, and neither white space nor commas are left in or around them. -/
theorem of_mem_parts {s part : String} (h : part ∈ parts s) :
    part ≠ "" ∧ Text.strip part = part ∧ ',' ∉ part.toList := by
  unfold parts at h
  obtain ⟨hmem, hne⟩ := List.mem_filter.1 h
  obtain ⟨piece, hpiece, rfl⟩ := List.mem_map.1 hmem
  obtain ⟨cs, hcs, rfl⟩ := List.mem_map.1 hpiece
  obtain ⟨l, r, hends, -, -⟩ := Text.exists_strip (.ofList cs)
  refine ⟨by simpa using hne, Text.strip_strip _, fun hcomma =>
    Text.not_mem_of_mem_splitOn ',' s.toList cs hcs ?_⟩
  rw [← String.toList_ofList (l := cs), hends]
  simp [hcomma]

theorem of_mem_slice {ps : List String} {part : String} (h : slice domain name a.toTextObject = .ok ps)
    (hpart : part ∈ ps) :
    part ≠ "" ∧ Text.strip part = part ∧ ',' ∉ part.toList := by
  obtain ⟨v, hv, h⟩ := bind_eq_ok_iff.1 h
  rcases text_of_raw hv with rfl | ⟨s, rfl⟩
  · cases h
    cases hpart
  · cases h
    exact of_mem_parts hpart

theorem isTexts_toTextObject (a : Table String String) : a.toTextObject.IsTexts :=
  .inr ⟨(a.map Value.text).entries, rfl, (a.map _).distinct, forall_text a⟩

/-- The annotations of a group are texts under different names. -/
theorem exists_group (domain name : String) (a : Table String String) :
    ∃ fs, group domain name a.toTextObject = .ok fs ∧ Entries.Distinct fs ∧ ∀ e ∈ fs, ∃ s, e.2 = .text s := by
  obtain ⟨fs, gs, hfs, -, h⟩ := group_eq (Value.Reordered.refl (isTexts_toTextObject a)) domain name
  cases h with
  | object hdistinct htexts _ => exact ⟨fs, hfs, hdistinct, htexts⟩

theorem mem_group_iff {fs : Fields} {rest s : String} (h : group domain name a.toTextObject = .ok fs) :
    (rest, .text s) ∈ fs ↔ a.get? (key domain (name ++ "." ++ rest)) = some s := by
  have hkey : key domain (name ++ "." ++ rest) = key domain (name ++ ".") ++ rest := by
    simp [key, String.append_assoc]
  rw [show group domain name a.toTextObject =
    .ok ((a.map Value.text).entries.filterMap (inGroup? domain name)) from
    group_object domain name _] at h
  rw [← Except.ok.inj h, hkey, List.mem_filterMap, ← Table.mem_entries_iff]
  constructor
  · rintro ⟨e, he, hin⟩
    obtain ⟨f, hf, rfl⟩ := List.mem_map.1 he
    obtain ⟨rest', hrest, heq⟩ := Option.map_eq_some_iff.1 hin
    obtain ⟨rfl, hs⟩ := Prod.mk.inj heq
    cases hs
    rw [← Text.dropStart?_eq_some_iff.1 hrest]
    exact hf
  · intro hmem
    refine ⟨_, List.mem_map_of_mem hmem, ?_⟩
    unfold inGroup?
    rw [Text.dropStart?_eq_some_iff.2 rfl]
    rfl

end Annotations

namespace Actions

/-- The actions are those that can be read. -/
theorem get?_parse {fs fields : Fields} {actions : Actions} {n : String} (hd : Entries.Distinct fs)
    (h : parse fs = .ok actions) :
    actions.get? n = some fields ↔ ∃ v, (n, v) ∈ fs ∧ parseOne n v = .ok fields := by
  rw [parse_def] at h
  obtain ⟨as, has, h⟩ := bind_eq_ok_iff.1 h
  rw [← Except.ok.inj h, ← Table.mem_entries_iff, Table.entries_ofList (distinct_of_parseEntry hd has)]
  constructor
  · intro hmem
    obtain ⟨e, he, hone⟩ := mem_of_mapM has _ hmem
    obtain ⟨fields', hfields, heq⟩ := bind_eq_ok_iff.1 hone
    cases heq
    exact ⟨e.2, he, hfields⟩
  · rintro ⟨v, hmem, hone⟩
    obtain ⟨d, hd, hentry⟩ := exists_of_mapM has _ hmem
    obtain ⟨fields', hfields, heq⟩ := bind_eq_ok_iff.1 hentry
    cases heq
    rw [hone] at hfields
    cases hfields
    exact hd

theorem parseOne_text_eq_ok_iff {n s : String} {fields : Fields} :
    parseOne n (.text s) = .ok fields ↔ Value.read s = .ok (.object fields) := by
  unfold parseOne
  dsimp only
  split
  · rename_i hread
    rw [hread, Except.ok.injEq, Except.ok.injEq, Value.object.injEq]
  · rename_i v hv hread
    rw [hread]
    exact iff_of_false nofun fun h => hv _ (Except.ok.inj h)
  · rename_i hread
    rw [hread]
    exact iff_of_false nofun nofun

theorem configuration_parse {fs : Fields} (htexts : ∀ e ∈ fs, ∃ s, e.2 = .text s) :
    Errs Error.IsConfiguration (parse fs) := by
  rw [parse_def]
  refine errs_bind.2 ⟨fun e he => ?_, fun _ _ => errs_ok _⟩
  obtain ⟨name, rfl | ⟨text, rfl⟩⟩ := isAction_of_parseEntry htexts he
  · exact Error.isConfiguration_configuration _
  · exact Error.isConfiguration_configuration _

end Actions

namespace ServiceSettings

theorem configuration_choice? (name : String) (v : Value) (allowed : List String) :
    Errs Error.IsConfiguration (choice? name v allowed) := by
  cases v <;> simp [choice?]

section

variable {given c : Config} {a b : Table String String} {settings : ServiceSettings} {domain : String}

/-- All that can go wrong is a configuration error. -/
theorem configuration_parse (c : Config) (a : Table String String) :
    Errs Error.IsConfiguration (parse c a.toTextObject) := by
  obtain ⟨fs, hfs, -, htexts⟩ := Annotations.exists_group c.domain.shown "actions" a
  simp [parse, hfs, Annotations.configuration_raw, Annotations.configuration_slice,
    Annotations.configuration_pairs,
    Annotations.configuration_integer?, configuration_choice?, Actions.configuration_parse htexts]

/-- The actions are the JSON objects that are declared. -/
theorem Reads.get?_actions (h : Reads c a.toTextObject settings) (n : String) (fields : Fields) :
    settings.actions.get? n = some fields ↔
      ∃ s, a.get? (Annotations.key c.domain.shown ("actions." ++ n)) = some s ∧
        Value.read s = .ok (.object fields) := by
  obtain ⟨fs, hgroup, hactions⟩ := h.actions
  obtain ⟨fs', hgroup', hdistinct, htexts⟩ := Annotations.exists_group c.domain.shown "actions" a
  rw [hgroup] at hgroup'
  cases hgroup'
  rw [Actions.get?_parse hdistinct hactions]
  constructor
  · rintro ⟨v, hmem, hone⟩
    obtain ⟨s, rfl⟩ := htexts _ hmem
    exact ⟨s, (Annotations.mem_group_iff hgroup).1 hmem, Actions.parseOne_text_eq_ok_iff.1 hone⟩
  · rintro ⟨s, hs, hread⟩
    exact ⟨_, (Annotations.mem_group_iff hgroup).2 hs, Actions.parseOne_text_eq_ok_iff.2 hread⟩

/-- What the rest relies on in settings that were read of annotations: words of those that are
allowed, subnets without blanks and commas, texts that say something, and for actions what is
declared in JSON notation. -/
structure Sound (domain : String) (a : Table String String) (settings : ServiceSettings) : Prop where
  scheme : settings.loadBalancer.scheme ∈ [internalScheme, internetFacingScheme]
  ipAddressType : settings.loadBalancer.ipAddressType ∈ ["ipv4", "dualstack"]
  targetType : ∃ w ∈ Config.targetTypes, settings.targetGroup.targetType = .text w
  backendProtocol : ∃ w ∈ Config.backendProtocols, settings.targetGroup.backendProtocol = .text w
  protocol : settings.healthCheck.protocol ∈ ["TCP", "HTTP", "HTTPS"]
  subnets : ∀ s ∈ settings.loadBalancer.subnets, s ≠ "" ∧ Text.strip s = s ∧ ',' ∉ s.toList
  port : ∃ s, settings.healthCheck.port = .text s ∧ s ≠ ""
  path : ∃ s, settings.healthCheck.path = .text s ∧ s ≠ ""
  successCodes : ∃ s, settings.targetGroup.successCodes = .text s ∧ s ≠ ""
  actions : ∀ n fields, settings.actions.get? n = some fields ↔
    ∃ s, a.get? (Annotations.key domain ("actions." ++ n)) = some s ∧ Value.read s = .ok (.object fields)

theorem sound_of_parse (hc : given.validate = .ok c) (h : parse c a.toTextObject = .ok settings) :
    Sound c.domain.shown a settings := by
  have hreads := reads_of_parse h
  obtain ⟨htypes, hprotocols⟩ := Config.words_of_validateWith hc
  have hsaid : ∀ {name v} (usual : String), Annotations.raw c.domain.shown name a.toTextObject = .ok v →
      usual ≠ "" → ∃ s, v.orElse (.text usual) = .text s ∧ s ≠ "" := by
    intro name v usual hv husual
    obtain ⟨s, hs, hne⟩ := Value.exists_text_of_orElse usual (Annotations.text_of_raw hv)
    exact ⟨s, hs, hne husual⟩
  obtain ⟨_, _, -, hscheme, hschemeEq⟩ := hreads.scheme
  obtain ⟨_, _, -, htype, htypeEq⟩ := hreads.targetType
  obtain ⟨_, _, -, hbackend, hbackendEq⟩ := hreads.backendProtocol
  obtain ⟨_, _, -, hprotocol, hprotocolEq⟩ := hreads.protocol
  obtain ⟨_, hport, hportEq⟩ := hreads.port
  obtain ⟨_, hpath, hpathEq⟩ := hreads.path
  obtain ⟨_, hcodes, hcodesEq⟩ := hreads.successCodes
  exact {
    scheme := by
      rw [hschemeEq]
      exact getD_mem_of_choice? hscheme (by simp)
    ipAddressType := ipAddressType_of_parse h
    targetType := by
      rw [htypeEq]
      exact exists_text_of_choice? htype htypes
    backendProtocol := by
      rw [hbackendEq]
      exact exists_text_of_choice? hbackend hprotocols
    protocol := by
      rw [hprotocolEq]
      exact getD_mem_of_choice? hprotocol (by simp)
    subnets := fun s hs => Annotations.of_mem_slice hreads.subnets hs
    port := by
      rw [hportEq]
      exact hsaid _ hport (by decide)
    path := by
      rw [hpathEq]
      exact hsaid _ hpath (by decide)
    successCodes := by
      rw [hcodesEq]
      exact hsaid _ hcodes (by decide)
    actions := hreads.get?_actions }

/-! ## What does not count -/

theorem raw_under (domain : String) (a : Table String String) (name : String) :
    Annotations.raw domain name (a.under domain).toTextObject =
      Annotations.raw domain name a.toTextObject := by
  have hstart : Text.startsWith (domain ++ "/") (Annotations.key domain name) = true :=
    Text.startsWith_iff.2 ⟨name, rfl⟩
  rw [Annotations.raw_toTextObject, Annotations.raw_toTextObject, Table.under,
    Table.get?_filter_keys, if_pos hstart]

theorem group_under (domain : String) (a : Table String String) (name : String) :
    Annotations.group domain name (a.under domain).toTextObject =
      Annotations.group domain name a.toTextObject := by
  have houtside : ∀ e : String × String, ¬ Text.startsWith (domain ++ "/") e.1 = true →
      Annotations.inGroup? domain name (e.1, .text e.2) = none := by
    intro e he
    refine Option.map_eq_none_iff.2 (Option.eq_none_iff_forall_ne_some.2 fun rest hrest =>
      he (Text.startsWith_iff.2 ?_))
    rw [Text.dropStart?_eq_some_iff.1 hrest, Annotations.key]
    exact ⟨name ++ "." ++ rest, by simp only [String.append_assoc]⟩
  refine (Annotations.group_object domain name _).trans
    (Eq.trans ?_ (Annotations.group_object domain name _).symm)
  rw [List.filterMap_map, List.filterMap_map, Table.under, Table.filter, List.filterMap_filter]
  refine congrArg Except.ok (List.filterMap_congr fun e _ => ?_)
  by_cases he : Text.startsWith (domain ++ "/") e.1 = true
  · rw [if_pos he]
  · rw [if_neg he]
    exact (houtside e he).symm

/-- Only the annotations of the domain count. -/
theorem parse_under (c : Config) (a : Table String String) :
    parse c (a.under c.domain.shown).toTextObject = parse c a.toTextObject := by
  have hraw := raw_under c.domain.shown a
  unfold parse
  simp only [hraw, Annotations.slice_congr (hraw _), Annotations.pairs_congr (hraw _),
    Annotations.integer?_congr (hraw _), group_under]

/-- Annotations that agree in the domain are there the same, in some order. -/
theorem reordered_under (h : ∀ k, Text.startsWith (domain ++ "/") k = true → a.get? k = b.get? k) :
    Value.Reordered (a.under domain).toTextObject (b.under domain).toTextObject := by
  have hget : ∀ k, (a.under domain).get? k = (b.under domain).get? k := by
    intro k
    rw [Table.under, Table.under, Table.get?_filter_keys, Table.get?_filter_keys]
    by_cases hk : Text.startsWith (domain ++ "/") k = true
    · rw [if_pos hk, if_pos hk, h k hk]
    · rw [if_neg hk, if_neg hk]
  have hperm := Entries.perm_of_find? (a.under domain).distinct (b.under domain).distinct hget
  exact .object ((a.under domain).map Value.text).distinct (Annotations.forall_text _) (hperm.map _)

end

/-- Under a valid configuration, annotations that are texts are refused with a configuration error, or
give sound settings. What is annotated outside the domain does not count. In which order the annotations
stand does not count either, but for two declared actions that are both unreadable: then that decides
which of them is named. -/
theorem parse_sound {given c : Config} (hc : given.validate = .ok c) (a : Table String String) :
    ((∃ fault, parse c a.toTextObject = .error (.configuration fault)) ∨
      ∃ settings, parse c a.toTextObject = .ok settings ∧ Sound c.domain.shown a settings) ∧
    ∀ b : Table String String,
      (a.under c.domain.shown = b.under c.domain.shown → parse c a.toTextObject = parse c b.toTextObject) ∧
      ((∀ k, Text.startsWith (c.domain.shown ++ "/") k = true → a.get? k = b.get? k) →
        Paired SameSettings (parse c a.toTextObject) (parse c b.toTextObject) ∨
          IsActionFault (parse c a.toTextObject) ∧ IsActionFault (parse c b.toTextObject)) := by
  refine ⟨?_, fun b => ⟨fun hab => ?_, fun hab => ?_⟩⟩
  · cases h : parse c a.toTextObject with
    | error e =>
      obtain ⟨fault, rfl⟩ := configuration_parse c a e h
      exact .inl ⟨fault, rfl⟩
    | ok settings => exact .inr ⟨settings, rfl, sound_of_parse hc h⟩
  · rw [← parse_under c a, ← parse_under c b, hab]
  · have hdemands := demands_of_reordered (X := False) c (reordered_under hab) False.elim
    rw [parse_under, parse_under] at hdemands
    exact hdemands.imp_right And.right

def sampleGiven : Config where
  clusterName := .text "main"
  vpcId := .text "vpc-1"
  nameStem := .text "main"
  targetType := .text "pod"

def sampleAnnotated : Table String String :=
  .ofList [("nlb.service.kubernetes.io/subnets", " subnet-a ,, subnet-b"),
  ("nlb.service.kubernetes.io/actions.web", "\x7b\x7d"), ("example.com/scheme", "unknown")]

theorem read_empty : Value.read "\x7b\x7d" = .ok (.object []) := by
  have hvalue : Reader.readValue (Reader.skip "\x7b\x7d".toList) = .ok (.object [], ⟨[], by decide⟩) := by
    rw [Reader.readValue.eq_def]
    rfl
  unfold Value.read
  rw [if_neg (by decide), hvalue]
  rfl

theorem parse_sound_sample :
    sampleGiven.validate = .ok { sampleGiven with targetType := .text "ip" } ∧
    (∃ settings,
      parse { sampleGiven with targetType := .text "ip" } sampleAnnotated.toTextObject = .ok settings ∧
      Sound "nlb.service.kubernetes.io" sampleAnnotated settings) ∧
    parse { sampleGiven with targetType := .text "ip" } sampleAnnotated.toTextObject =
      parse { sampleGiven with targetType := .text "ip" }
        (sampleAnnotated.erase "example.com/scheme").toTextObject := by
  have hvalid : sampleGiven.validate = .ok { sampleGiven with targetType := .text "ip" } := rfl
  obtain ⟨hresult, hlocal⟩ := parse_sound hvalid sampleAnnotated
  refine ⟨hvalid, hresult.resolve_left ?_, (hlocal _).1 rfl⟩
  rintro ⟨fault, hfault⟩
  have hparse : ∃ f : Actions → ServiceSettings,
      parse { sampleGiven with targetType := .text "ip" } sampleAnnotated.toTextObject =
      (Actions.parse [("web", .text "\x7b\x7d")] >>= fun actions => .ok (f actions)) := ⟨_, rfl⟩
  have hactions : Actions.parse [("web", .text "\x7b\x7d")] = .ok (.ofList [("web", [])]) := by
    rw [Actions.parse_def, List.mapM_cons, Actions.parseEntry, Actions.parseOne_text_eq_ok_iff.2 read_empty]
    rfl
  obtain ⟨f, hf⟩ := hparse
  rw [hf, hactions] at hfault
  cases hfault

end ServiceSettings

end Balancer
