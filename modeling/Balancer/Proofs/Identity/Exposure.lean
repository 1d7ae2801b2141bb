import Balancer.Proofs.Identity.Ownership
import Balancer.Proofs.Routing.Sharing

/-!
# Which backends of a Service share a target group's name

A target group's name ends in a digest of `tgHashed`, in which five texts stand with nothing in between. For
the backends of one Service the first two are the same, and where the others end can be told.

* `Exposure` : the number of a port, a protocol that a listener can have and a type of targets;
* `eq_of_append_eq` : a text of the characters of numbers ends where another character comes; `word_injective`
  : a protocol and a type can be told apart;
* `hashed_injective` : an exposure is determined by the text that is digested for it;
* `exists_exposure` : every backend of a Service that is no action has an exposure;
* `exposures_unambiguous` : so two backends of a Service share a name only if the digests of
  different texts start the same.
-/

namespace Balancer

set_option autoImplicit false

/-- Under a valid configuration, annotations ask for one of two types of targets. -/
theorem ServiceSettings.targetType_of_parse {given c : Config} {annotations : Value}
    {settings : ServiceSettings} (hvalid : given.validate = .ok c) (h : parse c annotations = .ok settings) :
    ∃ w ∈ Config.targetTypes, settings.targetGroup.targetType = .text w := by
  obtain ⟨v, word?, -, hword, heq⟩ := (reads_of_parse h).targetType
  obtain ⟨w, hw, htext⟩ := exists_text_of_choice? hword (Config.words_of_validateWith hvalid).1
  exact ⟨w, hw, heq.trans htext⟩

namespace Digest

/-- Two texts of different bytes whose digests start with the same `n` digits. -/
structure Collide (n : Nat) (s t : String) : Prop where
  ne : s.toUTF8 ≠ t.toUTF8
  digits : (md5Hex s).toList.take n = (md5Hex t).toList.take n

end Digest

namespace Identity

open Cluster Routing

/-- The protocols that a listener can have. -/
def listenerProtocols : List String := Config.backendProtocols ++ ["TCP_UDP"]

/-- How a Service exposes one of its ports: by the number, the protocol of the listener and
the type of the targets. -/
@[ext]
structure Exposure where
  port : Int
  protocol : String
  targetType : String
  protocol_mem : protocol ∈ listenerProtocols
  targetType_mem : targetType ∈ Config.targetTypes

namespace Exposure

/-- The backend of a Service for an exposure. -/
def backend (e : Exposure) (service : String) : Backend :=
  ⟨.text service, .text (Text.decimal e.port), .text e.protocol⟩

/-- The text whose digest ends the name of the target group. -/
def hashed (e : Exposure) (stem ns service : String) : String :=
  tgHashed stem ns service service (Text.decimal e.port) e.targetType e.protocol

/-- The name of the target group. -/
def nameTg (e : Exposure) (i : Identity) (ns service : String) : Except Error String :=
  i.nameTg (.text ns) (.text service) (e.backend service).service
    (e.backend service).port (.text e.targetType)
    (e.backend service).protocol

end Exposure

/-- A Service of some namespace and name, and the listeners that it asks for with its annotations under
a valid configuration. -/
structure Declares (ns name : String) (service : Value) (settings : ServiceSettings)
    (specs : List ListenerSpec) : Prop where
  named : names service = .ok (.text ns, .text name)
  settled : ∃ (given c : Config) (annotated : Value), given.validate = .ok c ∧
    annotations service = .ok annotated ∧
    ServiceSettings.parse c annotated = .ok settings
  listeners : listenerSpecs service settings = .ok specs

section

variable {stem ns service : String} {e e' : Exposure} {xs ys xs' ys' : List Char}

/-! ## Where texts end -/

/-- A character of the decimal text of an integer. -/
def isNumeral (c : Char) : Bool := c == '-' || c.isDigit

theorem isNumeral_of_mem_decimal {n : Int} {c : Char} (h : c ∈ (Text.decimal n).toList) :
    isNumeral c = true := by
  rcases Text.mem_decimal h with rfl | hdigit
  · rfl
  · simp [isNumeral, hdigit]

/-- Two texts in a row can be told apart if the first consists of characters of one kind and the
second starts with another. -/
theorem eq_of_append_eq {p : Char → Bool} (hxs : ∀ c ∈ xs, p c = true) (hxs' : ∀ c ∈ xs', p c = true)
    (hys : ys.takeWhile p = []) (hys' : ys'.takeWhile p = []) (h : xs ++ ys = xs' ++ ys') :
    xs = xs' ∧ ys = ys' := by
  have hfirst : xs = xs' := by
    have htake := congrArg (List.takeWhile p) h
    rwa [List.takeWhile_append_of_pos hxs, List.takeWhile_append_of_pos hxs', hys, hys', List.append_nil,
      List.append_nil] at htake
  subst hfirst
  exact ⟨rfl, List.append_cancel_left h⟩

/-- A protocol does not go on a number. -/
theorem takeWhile_word (e : Exposure) : (e.protocol ++ e.targetType).toList.takeWhile isNumeral = [] := by
  have hall : ∀ protocol ∈ listenerProtocols, ∀ targetType ∈ Config.targetTypes,
      (protocol ++ targetType).toList.takeWhile isNumeral = [] := by decide
  exact hall _ e.protocol_mem _ e.targetType_mem

/-- One protocol is the start of another one, but what comes behind it in the other is no type of targets. -/
theorem word_injective (h : e.protocol ++ e.targetType = e'.protocol ++ e'.targetType) :
    e.protocol = e'.protocol ∧ e.targetType = e'.targetType := by
  have hall : ∀ protocol ∈ listenerProtocols, ∀ targetType ∈ Config.targetTypes,
      ∀ protocol' ∈ listenerProtocols,
      ∀ targetType' ∈ Config.targetTypes, protocol ++ targetType = protocol' ++ targetType' →
        protocol = protocol' ∧ targetType = targetType' := by decide
  exact hall _ e.protocol_mem _ e.targetType_mem _ e'.protocol_mem _ e'.targetType_mem h

theorem toList_hashed (e : Exposure) (stem ns service : String) :
    (e.hashed stem ns service).toList =
      (lbName stem ns service ++ service).toList ++
        ((Text.decimal e.port).toList ++ (e.protocol ++ e.targetType).toList) := by
  unfold Exposure.hashed tgHashed
  simp only [String.toList_append, List.append_assoc]

/-- The digested text of an exposure determines it. -/
theorem hashed_injective (h : e.hashed stem ns service = e'.hashed stem ns service) : e = e' := by
  have hlists := congrArg String.toList h
  rw [toList_hashed, toList_hashed] at hlists
  obtain ⟨hport, hword⟩ :=
    eq_of_append_eq (fun _ => isNumeral_of_mem_decimal) (fun _ => isNumeral_of_mem_decimal)
    (takeWhile_word e) (takeWhile_word e') (List.append_cancel_left hlists)
  obtain ⟨hprotocol, htype⟩ := word_injective (String.toList_inj.1 hword)
  exact Exposure.ext (Text.decimal_injective (String.toList_inj.1 hport)) hprotocol htype

/-! ## Names -/

theorem tgName_eq_iff {backend port targetType protocol backend' port' targetType' protocol' : String} :
    tgName stem ns service backend port targetType protocol =
      tgName stem ns service backend' port' targetType' protocol' ↔
      (Digest.md5Hex (tgHashed stem ns service backend port targetType protocol)).toList.take 19 =
        (Digest.md5Hex (tgHashed stem ns service backend' port' targetType' protocol')).toList.take 19 := by
  unfold tgName
  rw [String.ofList_inj, List.append_cancel_left_eq, List.cons.injEq]
  exact and_iff_right rfl

theorem exists_exposure {name : String} {object : Value} {settings : ServiceSettings}
    {specs : List ListenerSpec} {spec : ListenerSpec} (h : Declares ns name object settings specs)
    (hspec : spec ∈ specs) (hused : Actions.isUsed spec.backend.port = false) :
    ∃ e : Exposure, e.port = spec.port ∧ spec.backend = e.backend name ∧
      settings.targetGroup.targetType = .text e.targetType := by
  obtain ⟨given, c, annotated, hvalid, -, hparse⟩ := h.settled
  obtain ⟨targetType, htype, htext⟩ := ServiceSettings.targetType_of_parse hvalid hparse
  obtain ⟨protocol, hmem, hprotocol⟩ : ∃ protocol ∈ listenerProtocols, spec.protocol = .text protocol := by
    rcases word_of_listenerSpecs h.listeners hspec with husual | hudp | hboth
    · rw [husual]
      rcases ServiceSettings.backendProtocol_of_parse hvalid hparse with htcp | hudp
      · exact ⟨"TCP", by decide, htcp⟩
      · exact ⟨"UDP", by decide, hudp⟩
    · exact ⟨"UDP", by decide, hudp⟩
    · exact ⟨"TCP_UDP", by decide, hboth⟩
  obtain ⟨hsame, hown⟩ := backend_of_listenerSpecs h.listeners hspec
  refine ⟨⟨spec.port, protocol, targetType, hmem, htype⟩, rfl, ?_, htext⟩
  refine (Backend.mk.injEq ..).mpr ?_
  exact ⟨Converge.service_of_names h.named h.listeners hspec hused, (hown hused).2, hsame.trans hprotocol⟩

/-- The text that is digested for a backend of a Service tells the number of its port, its protocol and the
type of its targets. All backends of the Service that are no actions are made of these, and the names of their
target groups are equal only if these are, or if the digests of two texts collide. -/
theorem exposures_unambiguous {i : Identity} (hstem : i.stem = .text stem) (ns name : String) :
    (∀ e e' : Exposure, (e.hashed stem ns name).toUTF8 = (e'.hashed stem ns name).toUTF8 ↔ e = e') ∧
      (∀ (object : Value) (settings : ServiceSettings) (specs : List ListenerSpec),
        Declares ns name object settings specs →
        ∀ spec ∈ specs, Actions.isUsed spec.backend.port = false →
          ∃ e : Exposure, e.port = spec.port ∧ spec.backend = e.backend name ∧
            settings.targetGroup.targetType = .text e.targetType) ∧
      ∀ e e' : Exposure, ∃ tg tg', e.nameTg i ns name = .ok tg ∧ e'.nameTg i ns name = .ok tg' ∧
        (tg = tg' ↔ e = e' ∨ Digest.Collide 19 (e.hashed stem ns name) (e'.hashed stem ns name)) := by
  have hinjective : ∀ e e' : Exposure,
      (e.hashed stem ns name).toUTF8 = (e'.hashed stem ns name).toUTF8 ↔ e = e' :=
    fun e e' => ⟨fun h => hashed_injective (String.toByteArray_inj.1 h), fun h => h ▸ rfl⟩
  refine ⟨hinjective, fun object settings specs h spec hspec hused =>
    exists_exposure h hspec hused, fun e e' => ?_⟩
  refine ⟨_, _, nameTg_text hstem _ _ _ _ _ _, nameTg_text hstem _ _ _ _ _ _, ?_⟩
  rw [tgName_eq_iff]
  constructor
  · intro hdigits
    by_cases heq : e = e'
    · exact .inl heq
    · exact .inr ⟨fun hbytes => heq ((hinjective e e').1 hbytes), hdigits⟩
  · rintro (rfl | hcollide)
    · rfl
    · exact hcollide.digits

end

def dnsSpecs : List ListenerSpec :=
  [⟨53, .text "TCP_UDP", ⟨.text "dns", .text "53", .text "TCP_UDP"⟩⟩,
    ⟨80, .text "TCP", ⟨.text "dns", .text "80", .text "TCP"⟩⟩]

/-- The names of the two target groups of `dnsService` are equal only if two digests start the same. -/
theorem dns_unambiguous :
    Declares "default" "dns" dnsService {} dnsSpecs ∧
      ∃ e e' : Exposure, dnsSpecs.map (·.backend) = [e.backend "dns", e'.backend "dns"] ∧
        (e.hashed "nlb" "default" "dns").toUTF8 ≠ (e'.hashed "nlb" "default" "dns").toUTF8 ∧
        ∃ tg tg', e.nameTg ⟨.text "nlb", .text "prod", ∅⟩ "default" "dns" = .ok tg ∧
          e'.nameTg ⟨.text "nlb", .text "prod", ∅⟩ "default" "dns" = .ok tg' ∧
          (tg = tg' ↔ Digest.Collide 19 (e.hashed "nlb" "default" "dns")
            (e'.hashed "nlb" "default" "dns")) := by
  have hvalid : dnsConfig.validate = .ok dnsConfig :=
    Config.validateWith_eq_ok_iff.2 ⟨rfl, rfl, rfl, rfl, 3, rfl, by decide, .text "nlb", rfl, rfl, rfl⟩
  have hdeclares : Declares "default" "dns" dnsService {} dnsSpecs :=
    ⟨rfl, ⟨dnsConfig, dnsConfig, .null, hvalid, rfl, rfl⟩, rfl⟩
  obtain ⟨hhashed, hexposures, hnames⟩ :=
    exposures_unambiguous (i := ⟨.text "nlb", .text "prod", ∅⟩) rfl "default" "dns"
  obtain ⟨e, hport, hbackend, -⟩ := hexposures _ _ _ hdeclares dnsSpecs[0] (List.getElem_mem _) (by decide)
  obtain ⟨e', hport', hbackend', -⟩ := hexposures _ _ _ hdeclares dnsSpecs[1] (List.getElem_mem _) (by decide)
  have hne : e ≠ e' := by
    rintro rfl
    exact absurd (hport.symm.trans hport') (by decide)
  obtain ⟨tg, tg', htg, htg', hiff⟩ := hnames e e'
  refine ⟨hdeclares, e, e', ?_, fun h => hne ((hhashed e e').1 h), tg, tg', htg, htg', ?_⟩
  · rw [← hbackend, ← hbackend']
    rfl
  · rw [hiff, or_iff_right hne]

end Identity

end Balancer
