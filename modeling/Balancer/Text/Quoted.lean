import Balancer.Text.Printable

/-!
# Quoted texts

`quoted` writes a text between quotes with its unprintable characters escaped. The quote is `'`, or `"` where
the text holds `'` and no `"`.
-/

namespace Balancer.Text

set_option autoImplicit false

/-- The quote around a text: the single one unless that would have to be escaped and the
double one would not. -/
def quoteFor (cs : List Char) : Char :=
  if cs.contains '\'' && !cs.contains '"' then '"' else '\''

/-- The lower-case hexadecimal digits of a number, at least `width` of them. -/
def hex (width n : Nat) : List Char :=
  let digits := (Nat.toDigits 16 n)
  List.replicate (width - digits.length) '0' ++ digits

theorem isAlphanum_digitChar : ∀ d < 16, (Nat.digitChar d).isAlphanum = true := by decide

theorem isAlphanum_of_mem_toDigits {n : Nat} {c : Char} (h : c ∈ Nat.toDigits 16 n) :
    c.isAlphanum = true := by
  have hdigit : ∀ d < 16, c ∈ Nat.toDigits 16 d → c.isAlphanum = true := by
    intro d hd hc
    rw [Nat.toDigits_of_lt_base hd] at hc
    rw [List.mem_singleton.1 hc]
    exact isAlphanum_digitChar d hd
  induction n using Nat.strongRecOn with
  | ind n ih =>
    by_cases hn : n < 16
    · exact hdigit n hn h
    · rw [← Nat.div_add_mod n 16, ← Nat.toDigits_append_toDigits (by decide) (by omega)
        (Nat.mod_lt n (by decide))] at h
      rcases List.mem_append.1 h with h | h
      · exact ih (n / 16) (by omega) h
      · exact hdigit (n % 16) (Nat.mod_lt n (by decide)) h

theorem isAlphanum_of_mem_hex {width n : Nat} {c : Char} (h : c ∈ hex width n) : c.isAlphanum = true := by
  rcases List.mem_append.1 h with h | h
  · rw [(List.mem_replicate.1 h).2]
    rfl
  · exact isAlphanum_of_mem_toDigits h

/-- A character between quotes: the quote, the backslash and unprintable characters are escaped. -/
def escaped (quote c : Char) : List Char :=
  if c = '\\' then ['\\', '\\']
  else if c = quote then ['\\', quote]
  else if c = '\n' then ['\\', 'n']
  else if c = '\r' then ['\\', 'r']
  else if c = '\t' then ['\\', 't']
  else if isPrintable c then [c]
  else if c.toNat ≤ 0xFF then '\\' :: 'x' :: hex 2 c.toNat
  else if c.toNat ≤ 0xFFFF then '\\' :: 'u' :: hex 4 c.toNat
  else '\\' :: 'U' :: hex 8 c.toNat

/-- A text between quotes. -/
def quoted (s : String) : String :=
  let quote := quoteFor s.toList
  String.ofList (quote :: s.toList.flatMap (escaped quote) ++ [quote])

end Balancer.Text
