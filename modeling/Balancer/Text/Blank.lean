/-!
# White space

`isBlank` is the class of white space, `strip` drops it at both ends of a text. `stripOf_eq_self`
says that a text without white space at its ends is left alone, `stripOf_eq_nil_iff` that only white
space strips to nothing.
-/

namespace Balancer.Text

set_option autoImplicit false

/-- White space: the characters with the Unicode property of that name and the separators U+001C to U+001F. -/
def isBlank (c : Char) : Bool :=
  let n := c.toNat
  (0x09 ≤ n && n ≤ 0x0D) || (0x1C ≤ n && n ≤ 0x20) || n == 0x85 || n == 0xA0 || n == 0x1680 ||
    (0x2000 ≤ n && n ≤ 0x200A) || n == 0x2028 || n == 0x2029 || n == 0x202F || n == 0x205F || n == 0x3000

/-- White space around a number: as `isBlank`, less the separators U+001C to U+001F. -/
def isNumberBlank (c : Char) : Bool :=
  isBlank c && !(0x1C ≤ c.toNat && c.toNat ≤ 0x1F)

/-- A text without the characters of a class at its ends. -/
def stripOf (drops : Char → Bool) (cs : List Char) : List Char :=
  ((cs.dropWhile drops).reverse.dropWhile drops).reverse

/-- A text without the white space at its ends. -/
def strip (s : String) : String := String.ofList (stripOf isBlank s.toList)

theorem stripOf_eq_nil_iff (p : Char → Bool) (cs : List Char) : stripOf p cs = [] ↔ ∀ c ∈ cs, p c = true := by
  have key : ∀ l : List Char, l.dropWhile p = [] ↔ ∀ c ∈ l, p c = true := by
    intro l
    induction l with
    | nil => simp
    | cons a l ih =>
      by_cases h : p a = true
      · simp [h, ih]
      · simp [h]
  unfold stripOf
  rw [List.reverse_eq_nil_iff, key]
  constructor
  · intro h c hc
    by_cases hp : p c = true
    · exact hp
    · have : c ∈ cs.dropWhile p := by
        have hs := List.takeWhile_append_dropWhile (p := p) (l := cs)
        rw [← hs, List.mem_append] at hc
        rcases hc with hc | hc
        · exact absurd (List.all_eq_true.1 (List.all_takeWhile (l := cs)) c hc) hp
        · exact hc
      exact h c (by simpa using this)
  · intro h c hc
    exact h c ((List.dropWhile_sublist p).subset (by simpa using hc))

/-- A text whose first and last characters are not white space is left alone. -/
theorem stripOf_eq_self (p : Char → Bool) (cs : List Char) (hd : ∀ c ∈ cs.head?, p c = false)
    (hl : ∀ c ∈ cs.getLast?, p c = false) : stripOf p cs = cs := by
  have key : ∀ l : List Char, (∀ c ∈ l.head?, p c = false) → l.dropWhile p = l := by
    intro l h
    cases l with
    | nil => rfl
    | cons a l => simp [h a (by simp)]
  unfold stripOf
  rw [key cs hd, key cs.reverse (by simpa [List.head?_reverse] using hl), List.reverse_reverse]

end Balancer.Text
