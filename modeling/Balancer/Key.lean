import Balancer.Number

/-!
# Keys

`Key` is what entries of a table may be found by: null, a truth value, a number or a text. Keys are equal by
value, so that `1`, `1.0` and true are one key: `beq_iff_meaning` reduces equality to the `meaning` of keys,
and texts are equal to themselves only (`text_beq_text`).
-/

namespace Balancer

set_option autoImplicit false

inductive Key where
  | null
  | bool (b : Bool)
  | number (n : Number)
  | text (s : String)
  deriving Inhabited

namespace Key

/-- What equal keys share: nothing, a number in its reduced form, or a text. -/
def meaning : Key → Option (Number ⊕ String)
  | .null => none
  | .bool b => some (.inl (.integer (if b then 1 else 0)))
  | .number n => some (.inl n.reduced)
  | .text s => some (.inr s)

instance : BEq Key := ⟨fun a b => a.meaning = b.meaning⟩

theorem beq_iff_meaning {a b : Key} : (a == b) = true ↔ a.meaning = b.meaning := by
  simp [BEq.beq]

instance : EquivBEq Key where
  rfl := beq_iff_meaning.2 rfl
  symm h := beq_iff_meaning.2 (beq_iff_meaning.1 h).symm
  trans h h' := beq_iff_meaning.2 ((beq_iff_meaning.1 h).trans (beq_iff_meaning.1 h'))

@[simp] theorem text_beq_text (s t : String) : (Key.text s == Key.text t) = (s == t) := by
  rw [Bool.eq_iff_iff, beq_iff_meaning]
  simp [meaning]

/-- Only the text itself is equal to a text. -/
theorem beq_text_iff {k : Key} {s : String} : (k == .text s) = true ↔ k = .text s := by
  rw [beq_iff_meaning]
  cases k <;> simp [meaning]

end Key

end Balancer
