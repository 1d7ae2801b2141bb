import Balancer.Identity

/-!
# Which Services share a load balancer's name

A load balancer's name ends in a digest of `lbHashed`, the namespace and the name of its Service
with nothing in between.

* `lbHashed_eq_iff` : two Services have one such text if what one has at the end of its namespace the other
  has at the start of its name (`Shifted`); `lbHashed_injective` : Services of one namespace never do;
* `lbName_congr` : they then have one load balancer's name, whatever the stem;
* `hashed_apart_iff` : names are as far apart as digests are for all other Services, and only for them.
-/

namespace Balancer.Identity

set_option autoImplicit false

variable {ns service ns' service' : String}

/-- Some text ends one namespace and starts the other name, and the rest is the same. -/
def Shifted (ns service ns' service' : String) : Prop :=
  ∃ moved, moved ≠ "" ∧
    (ns' = ns ++ moved ∧ service = moved ++ service' ∨ ns = ns' ++ moved ∧ service' = moved ++ service)

theorem append_eq_append_iff {a b c d : String} :
    a ++ b = c ++ d ↔ (∃ m, c = a ++ m ∧ b = m ++ d) ∨ ∃ m, a = c ++ m ∧ d = m ++ b := by
  simp only [← String.toList_inj, String.toList_append, List.append_eq_append_iff]
  constructor
  · rintro (⟨m, h, h'⟩ | ⟨m, h, h'⟩)
    · exact .inl ⟨.ofList m, by simpa using h, by simpa using h'⟩
    · exact .inr ⟨.ofList m, by simpa using h, by simpa using h'⟩
  · rintro (⟨m, h, h'⟩ | ⟨m, h, h'⟩)
    · exact .inl ⟨m.toList, h, h'⟩
    · exact .inr ⟨m.toList, h, h'⟩

theorem lbHashed_eq_iff :
    lbHashed ns service = lbHashed ns' service' ↔
      (ns, service) = (ns', service') ∨ Shifted ns service ns' service' := by
  unfold lbHashed
  rw [append_eq_append_iff]
  constructor
  · rintro (⟨m, rfl, rfl⟩ | ⟨m, rfl, rfl⟩)
    · by_cases hm : m = ""
      · exact .inl (by simp [hm])
      · exact .inr ⟨m, hm, .inl ⟨rfl, rfl⟩⟩
    · by_cases hm : m = ""
      · exact .inl (by simp [hm])
      · exact .inr ⟨m, hm, .inr ⟨rfl, rfl⟩⟩
  · rintro (h | ⟨m, -, h | h⟩)
    · cases h
      exact .inl ⟨"", by simp, by simp⟩
    · exact .inl ⟨m, h⟩
    · exact .inr ⟨m, h⟩

theorem not_shifted (hlength : ns.length = ns'.length) : ¬ Shifted ns service ns' service' := by
  rintro ⟨m, hm, ⟨rfl, -⟩ | ⟨rfl, -⟩⟩
  all_goals
    rw [String.length_append] at hlength
    exact absurd (String.length_eq_zero_iff.1 (by omega)) hm

/-- Services whose namespaces are of one length, such as those of one namespace, have texts of their own. -/
theorem lbHashed_injective (hlength : ns.length = ns'.length)
    (h : lbHashed ns service = lbHashed ns' service') :
    ns = ns' ∧ service = service' :=
  Prod.mk.inj ((lbHashed_eq_iff.1 h).resolve_right (not_shifted hlength))

theorem plain_append (a b : String) : plain (a ++ b) = plain a ++ plain b := by
  unfold plain
  rw [String.toList_append, List.filter_append]

/-- The name of a load balancer depends on the Service through the digested text only. -/
theorem lbName_congr (stem : String) (h : lbHashed ns service = lbHashed ns' service') :
    lbName stem ns service = lbName stem ns' service' := by
  have hplain : plain ns ++ plain service = plain ns' ++ plain service' := by
    rw [← plain_append, ← plain_append]
    exact congrArg plain h
  unfold lbName
  rw [h]
  simp only [List.append_assoc, List.cons_append, hplain]

theorem nameLb_congr (i : Identity) (h : lbHashed ns service = lbHashed ns' service') :
    i.nameLb (.text ns) (.text service) = i.nameLb (.text ns') (.text service') := by
  unfold nameLb
  refine congrArg (i.stem.asText >>= ·) (funext fun stem => ?_)
  exact congrArg Except.ok (lbName_congr stem h)

/-- Equal names of two Services come from different digested texts for every stem, unless one Service is the
other with its namespace cut elsewhere: then they have one name for every stem. -/
theorem hashed_apart_iff (h : (ns, service) ≠ (ns', service')) :
    (∀ (i : Identity) (name : String), i.nameLb (.text ns) (.text service) = .ok name →
        i.nameLb (.text ns') (.text service') = .ok name → lbHashed ns service ≠ lbHashed ns' service') ↔
      ¬ Shifted ns service ns' service' := by
  constructor
  · intro hapart hshifted
    have heq := lbHashed_eq_iff.2 (.inr hshifted)
    have hname := nameLb_text (i := ⟨.text "", .null, ∅⟩) rfl ns service
    exact hapart _ _ hname (nameLb_congr _ heq ▸ hname) heq
  · intro hshifted i name _ _ heq
    rcases lbHashed_eq_iff.1 heq with heq | heq
    · exact h heq
    · exact hshifted heq

/-- Two Services of one namespace. -/
theorem same_namespace_hashed_apart :
    ¬ Shifted "default" "foo" "default" "bar" ∧
      ∀ (i : Identity) (name : String), i.nameLb (.text "default") (.text "foo") = .ok name →
        i.nameLb (.text "default") (.text "bar") = .ok name →
        lbHashed "default" "foo" ≠ lbHashed "default" "bar" :=
  ⟨not_shifted rfl, (hashed_apart_iff (by decide)).2 (not_shifted rfl)⟩

/-- A label of the domain name system that starts with a letter, which both a namespace and a
Service can be called. -/
def isLabel (s : String) : Bool :=
  let plainOrHyphen := s.toList.all fun c => c.isLower || c.isDigit || c == '-'
  plainOrHyphen && s.length ≤ 63 && (s.toList.head?.any Char.isLower) && (s.toList.getLast?.any (· != '-'))

/-- Two Services whose load balancers have one name, cut off behind `nlb-backendpointofsalepubl`,
by one digested text. -/
theorem truncated_names_collide :
    ¬ ∀ (i : Identity) (ns service ns' service' name : String), isLabel ns → isLabel service →
      isLabel ns' → isLabel service' →
      (ns, service) ≠ (ns', service') → i.nameLb (.text ns) (.text service) = .ok name →
      i.nameLb (.text ns') (.text service') = .ok name → lbHashed ns service ≠ lbHashed ns' service' := by
  intro hall
  have heq : lbHashed "back" "endpoint-of-sale-public-api" =
      lbHashed "backend" "point-of-sale-public-api" := by decide
  have hname := nameLb_text (i := ⟨.text "nlb", .text "main", ∅⟩) rfl "back" "endpoint-of-sale-public-api"
  exact hall _ "back" "endpoint-of-sale-public-api" "backend" "point-of-sale-public-api" _
    (by decide) (by decide)
    (by decide) (by decide) (by decide) hname (nameLb_congr _ heq ▸ hname) heq

end Balancer.Identity
