import Balancer.Config
import Balancer.Proofs.Checked
import Balancer.Proofs.Value

/-!
# Valid configurations

* `validateWith_eq_ok_iff` : what a configuration has to pass, and what is filled in;
* `words_of_validateWith` : its target type and its protocol are of those that are allowed;
* `nameStem_of_validate` : the stem of a valid configuration is short, and a checksum if none was given.
-/

namespace Balancer

set_option autoImplicit false

namespace Config

variable {given c : Config} {name : Except Error String} {s : String}

/-- A configuration is valid if each check passes, and then only the target type and the
name stem may differ. -/
theorem validateWith_eq_ok_iff :
    given.validateWith name = .ok c ↔
      (currentTargetType given.targetType).isOneOf targetTypes = true ∧
      given.backendProtocol.isOneOf backendProtocols = true ∧
      given.clusterName.holds = true ∧ given.vpcId.holds = true ∧
      ∃ n, given.nameStem.length = .ok n ∧ n ≤ maxStemLength ∧
        ∃ stem, stemOr given.nameStem name = .ok stem ∧ given.workers.before (.int 1) = .ok false ∧
          c = { given with targetType := currentTargetType given.targetType, nameStem := stem } := by
  have hpure : ∀ d : Config, (pure d : Except Error Config) = .ok c ↔ c = d :=
    fun d => ⟨fun h => (Except.ok.inj h).symm, fun h => h ▸ rfl⟩
  unfold validateWith
  simp only [ite_throw_eq_ok_iff, bind_eq_ok_iff, hpure, Bool.not_eq_true', Bool.not_eq_false,
    Bool.not_eq_true, Nat.not_lt, and_left_comm (b := _ = false), exists_eq_left]

/-- The words of a valid configuration are of those that are allowed. -/
theorem words_of_validateWith (h : given.validateWith name = .ok c) :
    (∃ w ∈ targetTypes, c.targetType = .text w) ∧ ∃ w ∈ backendProtocols, c.backendProtocol = .text w := by
  obtain ⟨htype, hprotocol, -, -, n, -, -, stem, -, -, rfl⟩ := validateWith_eq_ok_iff.1 h
  exact ⟨Value.isOneOf_iff.1 htype, Value.isOneOf_iff.1 hprotocol⟩

theorem nameStem_of_validate (hs : given.nameStem = .text s) (h : given.validate = .ok c) :
    s.length ≤ maxStemLength ∧ (c.nameStem = .text s ∨
      s = "" ∧ ∃ cluster, c.nameStem = .text (stemOf cluster)) := by
  obtain ⟨-, -, -, -, n, hn, hle, stem, hstem, -, rfl⟩ := validateWith_eq_ok_iff.1 h
  rw [hs] at hn hstem
  cases hn
  refine ⟨hle, ?_⟩
  unfold stemOr at hstem
  by_cases hempty : s = ""
  · subst hempty
    obtain ⟨cluster, -, hstem⟩ := bind_eq_ok_iff.1 hstem
    cases hstem
    exact .inr ⟨rfl, cluster, rfl⟩
  · rw [if_pos (by simpa [Value.holds] using hempty)] at hstem
    cases hstem
    exact .inl rfl

end Config

end Balancer
