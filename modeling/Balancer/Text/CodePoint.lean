import Balancer.Text.Encoding

/-!
# Texts from outside

What comes from outside is a row of code points, among which surrogates may stand alone: `Raw`. Such a text is
shown with the replacement character in place of each of them (`Raw.shown`), but no encoding writes it:
`Raw.text_eq_ok_iff` says that `Raw.text` is the text of a row of characters, and of nothing else.
-/

namespace Balancer.Text

set_option autoImplicit false

/-- A code point: a character, or a surrogate that stands alone. -/
inductive CodePoint where
  | char (c : Char)
  | surrogate (u : Nat) (isSurrogate : isHighSurrogate u || isLowSurrogate u)
  deriving DecidableEq, Repr

namespace CodePoint

def isSurrogate : CodePoint → Bool
  | char _ => false
  | surrogate _ _ => true

/-- The character that is shown for a code point. -/
def shown : CodePoint → Char
  | char c => c
  | surrogate u _ => unitChar u

end CodePoint

/-- The first surrogates of a text: where they are, the first of them, and how many there are in a row. -/
structure Strays where
  place : Nat
  first : Nat
  count : Nat
  deriving DecidableEq, Repr

/-- A text as it comes from outside. -/
abbrev Raw := List CodePoint

namespace Raw

def ofText (s : String) : Raw := s.toList.map .char

def shown (t : Raw) : String := String.ofList (t.map CodePoint.shown)

/-- The characters of a text of which `place` code points are done, or the surrogates among what is left. -/
def charactersFrom (place : Nat) : Raw → Except Strays (List Char)
  | [] => .ok []
  | .char c :: rest => do return c :: (← charactersFrom (place + 1) rest)
  | .surrogate u _ :: rest => .error ⟨place, u, (rest.takeWhile CodePoint.isSurrogate).length + 1⟩

/-- The text that an encoding writes, or the surrogates that it cannot write. -/
def text (t : Raw) : Except Strays String := String.ofList <$> t.charactersFrom 0

@[simp] theorem shown_ofText (s : String) : (ofText s).shown = s := by
  simp [shown, ofText, CodePoint.shown, Function.comp_def]

theorem charactersFrom_map_char (place : Nat) (cs : List Char) :
    charactersFrom place (cs.map .char) = .ok cs := by
  induction cs generalizing place with
  | nil => rfl
  | cons c cs ih =>
    rw [List.map_cons, charactersFrom, ih]
    rfl

theorem eq_map_char_of_charactersFrom {t : Raw} {place : Nat} {cs : List Char}
    (h : t.charactersFrom place = .ok cs) : t = cs.map .char := by
  induction t generalizing place cs with
  | nil =>
    cases h
    rfl
  | cons p t ih =>
    cases p with
    | char c =>
      rw [charactersFrom] at h
      cases ht : charactersFrom (place + 1) t with
      | error strays =>
        rw [ht] at h
        cases h
      | ok ds =>
        rw [ht] at h
        cases h
        rw [List.map_cons, ← ih ht]
    | surrogate u hu => cases h

/-- A text is encoded just if it is a row of characters. -/
theorem text_eq_ok_iff {t : Raw} {s : String} : t.text = .ok s ↔ t = ofText s := by
  constructor
  · intro h
    unfold text at h
    cases hcs : t.charactersFrom 0 with
    | error strays =>
      rw [hcs] at h
      cases h
    | ok cs =>
      rw [hcs] at h
      cases h
      rw [ofText, String.toList_ofList]
      exact eq_map_char_of_charactersFrom hcs
  · rintro rfl
    rw [text, ofText, charactersFrom_map_char]
    exact congrArg Except.ok String.ofList_toList

@[simp] theorem text_ofText (s : String) : (ofText s).text = .ok s := text_eq_ok_iff.2 rfl

/-- `caf` and a byte that is no text, as a surrogate. -/
example : text (ofText "caf" ++ [.surrogate 0xDCE9 rfl]) = .error ⟨3, 0xDCE9, 1⟩ := rfl

end Raw

end Balancer.Text
