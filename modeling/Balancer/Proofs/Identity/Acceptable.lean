import Balancer.Identity
import Balancer.Proofs.Config

/-!
# Names that the cloud accepts

The cloud takes names of 1 to 32 letters, digits and hyphens of ASCII (`Acceptable`).

* `acceptable_lbName` : the name of a load balancer is acceptable whatever it is made of;
* `acceptable_tgName_iff` : that of a target group is so just if what the stem gives to it is;
* `acceptable_iff_of_validate` : under a valid configuration that is the whole stem. A stem that is not given
  is a checksum, and checksums are acceptable.
-/

namespace Balancer

set_option autoImplicit false

namespace Digest

theorem isAlphanum_of_mem_md5Hex {s : String} {c : Char} (h : c ∈ (md5Hex s).toList) :
    c.isAlphanum = true := by
  unfold md5Hex at h
  rw [String.toList_ofList] at h
  obtain ⟨b, -, h⟩ := List.mem_flatMap.1 h
  exact Text.isAlphanum_of_mem_hex h

theorem isAlphanum_of_mem_crc32Hex {s : String} {c : Char} (h : c ∈ (crc32Hex s).toList) :
    c.isAlphanum = true := by
  unfold crc32Hex at h
  rw [String.toList_ofList] at h
  exact Text.isAlphanum_of_mem_hex h

end Digest

namespace Identity

/-- A letter, a digit or a hyphen of ASCII. -/
def isNameChar (c : Char) : Bool := isPlain c || c == '-'

/-- A name that the cloud accepts for a load balancer or a target group. -/
structure Acceptable (name : String) : Prop where
  nonempty : 1 ≤ name.length
  short : name.length ≤ 32
  chars : ∀ c ∈ name.toList, isNameChar c = true

variable {stem ns service backend port targetType protocol hashed : String} {body : List Char}
  {m n : Nat} {c : Char}

theorem isNameChar_of_isPlain (h : isPlain c = true) : isNameChar c = true := by
  simp [isNameChar, h]

/-- Every name is the start of a body, a hyphen and the first characters of a digest. -/
theorem length_suffixed (hlength : m + n ≤ 31) :
    1 ≤ (String.ofList (body.take m ++ '-' :: (Digest.md5Hex hashed).toList.take n)).length ∧
      (String.ofList (body.take m ++ '-' :: (Digest.md5Hex hashed).toList.take n)).length ≤ 32 := by
  rw [String.length_ofList, List.length_append, List.length_cons, List.length_take, List.length_take]
  omega

theorem acceptable_suffixed_iff (hlength : m + n ≤ 31) :
    Acceptable (String.ofList (body.take m ++ '-' :: (Digest.md5Hex hashed).toList.take n)) ↔
      ∀ c ∈ body.take m, isNameChar c = true := by
  constructor
  · intro h c hc
    apply h.chars
    rw [String.toList_ofList]
    exact List.mem_append_left _ hc
  · intro h
    refine ⟨(length_suffixed hlength).1, (length_suffixed hlength).2, fun c hc => ?_⟩
    rw [String.toList_ofList] at hc
    rcases List.mem_append.1 hc with hc | hc
    · exact h c hc
    · rcases List.mem_cons.1 hc with rfl | hc
      · rfl
      · exact isNameChar_of_isPlain (Digest.isAlphanum_of_mem_md5Hex (List.mem_of_mem_take hc))

theorem isNameChar_of_mem_hyphenated (h : c ∈ hyphenated stem) : isNameChar c = true := by
  obtain ⟨d, -, rfl⟩ := List.mem_map.1 h
  by_cases hd : isPlain d = true
  · rw [if_pos hd]
    exact isNameChar_of_isPlain hd
  · rw [if_neg hd]
    rfl

/-- Whatever a load balancer's name is made of, the cloud accepts it. -/
theorem acceptable_lbName (stem ns service : String) : Acceptable (lbName stem ns service) := by
  have hplain : ∀ s, ∀ c ∈ plain s, isNameChar c = true :=
    fun s c hc => isNameChar_of_isPlain (List.mem_filter.1 hc).2
  apply (acceptable_suffixed_iff (by decide)).2
  intro c hc
  rcases List.mem_append.1 (List.mem_of_mem_take hc) with hc | hc
  · rcases List.mem_append.1 hc with hc | hc
    · exact isNameChar_of_mem_hyphenated hc
    · rcases List.mem_cons.1 hc with rfl | hc
      · rfl
      · exact hplain ns c hc
  · exact hplain service c hc

/-- The stem stands in a target group's name as it is. -/
theorem acceptable_tgName_iff : Acceptable (tgName stem ns service backend port targetType protocol) ↔
    ∀ c ∈ stem.toList.take 12, isNameChar c = true :=
  acceptable_suffixed_iff (by decide)

theorem stem_ofConfig {c : Config} {i : Identity} (h : ofConfig c = .ok i) : i.stem = c.nameStem := by
  obtain ⟨tags, -, h⟩ := bind_eq_ok_iff.1 h
  cases h
  rfl

/-- Under a valid configuration the names of load balancers are acceptable, those of target groups
have an acceptable length, and they are acceptable just if the given stem holds nothing but
letters, digits and hyphens. -/
theorem acceptable_iff_of_validate {given c : Config} {i : Identity} {s : String}
    (hs : given.nameStem = .text s) (hvalid : given.validate = .ok c) (hi : i.stem = c.nameStem)
    (ns service backend port targetType protocol : String) :
    ∃ lb tg, i.nameLb (.text ns) (.text service) = .ok lb ∧
      i.nameTg (.text ns) (.text service) (.text backend) (.text port) (.text targetType)
        (.text protocol) = .ok tg ∧
      Acceptable lb ∧ 1 ≤ tg.length ∧ tg.length ≤ 32 ∧
      (Acceptable tg ↔ ∀ c ∈ s.toList, isNameChar c = true) := by
  obtain ⟨stem, hstem, hchars⟩ : ∃ stem, i.stem = .text stem ∧
      ((∀ c ∈ stem.toList.take 12, isNameChar c = true) ↔ ∀ c ∈ s.toList, isNameChar c = true) := by
    rw [hi]
    obtain ⟨hlength, hstem | ⟨rfl, cluster, hstem⟩⟩ := Config.nameStem_of_validate hs hvalid
    · refine ⟨s, hstem, ?_⟩
      rw [List.take_of_length_le (show s.toList.length ≤ 12 from hlength)]
    · refine ⟨_, hstem, iff_of_true (fun c hc => ?_) (fun c hc => nomatch hc)⟩
      exact isNameChar_of_isPlain (Digest.isAlphanum_of_mem_crc32Hex (List.mem_of_mem_take hc))
  have hlength : 1 ≤ (tgName stem ns service backend port targetType protocol).length ∧
      (tgName stem ns service backend port targetType protocol).length ≤ 32 := length_suffixed (by decide)
  exact ⟨_, _, nameLb_text hstem ns service, nameTg_text hstem _ _ _ _ _ _, acceptable_lbName _ _ _,
    hlength.1, hlength.2, acceptable_tgName_iff.trans hchars⟩

/-- A configuration of the cluster `main` with some name stem. -/
def stemConfig (s : String) :
    Config := { clusterName := .text "main", vpcId := .text "vpc-1", nameStem := .text s }

theorem validate_stemConfig {s : String} (hne : s ≠ "") (hlength : s.length ≤ 12) :
    (stemConfig s).validate = .ok (stemConfig s) := by
  refine Config.validateWith_eq_ok_iff.2 ⟨rfl, rfl, rfl, rfl, s.length, rfl, hlength, .text s, ?_, rfl, rfl⟩
  unfold Config.stemOr
  rw [stemConfig, if_pos (by simpa [Value.holds] using hne)]
  rfl

theorem hyphen_acceptable : ∃ lb tg,
    nameLb ⟨.text "my-nlb", .text "main", ∅⟩ (.text "default") (.text "web_1") = .ok lb ∧
      nameTg ⟨.text "my-nlb", .text "main", ∅⟩ (.text "default") (.text "web_1") (.text "web_1")
        (.text "80") (.text "ip")
        (.text "TCP") = .ok tg ∧ Acceptable lb ∧ Acceptable tg := by
  have hvalid := validate_stemConfig (s := "my-nlb") (by decide) (by decide)
  obtain ⟨lb, tg, hlb, htg, hlbok, -, -, hiff⟩ :=
    acceptable_iff_of_validate (i := ⟨.text "my-nlb", .text "main", ∅⟩) rfl hvalid
    (stem_ofConfig rfl) "default" "web_1" "web_1" "80" "ip" "TCP"
  exact ⟨lb, tg, hlb, htg, hlbok, hiff.2 (List.all_eq_true.1 rfl)⟩

/-- The stem `my_nlb` is valid. The underscore stays in the names of target groups. -/
theorem underscore_not_acceptable :
    ¬ ∀ (given c : Config) (i : Identity) (s ns service backend port targetType protocol lb tg : String),
      given.nameStem = .text s → given.validate = .ok c → ofConfig c = .ok i →
      i.nameLb (.text ns) (.text service) = .ok lb →
      i.nameTg (.text ns) (.text service) (.text backend) (.text port) (.text targetType)
        (.text protocol) = .ok tg →
      Acceptable lb ∧ Acceptable tg := by
  intro hall
  have hstem : (Identity.mk (.text "my_nlb") (.text "main") ∅).stem = .text "my_nlb" := rfl
  obtain ⟨-, htg⟩ := hall (stemConfig "my_nlb") _ ⟨.text "my_nlb", .text "main", ∅⟩ "my_nlb" "default" "web"
    "web" "80" "ip" "TCP" _ _
    rfl (validate_stemConfig (by decide) (by decide)) rfl (nameLb_text hstem _ _)
      (nameTg_text hstem _ _ _ _ _ _)
  exact absurd (acceptable_tgName_iff.1 htg '_' (by decide)) (by decide)

end Identity

end Balancer
