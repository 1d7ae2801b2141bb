/-!
# Cutting and joining texts

`splitOn` cuts a text at every occurrence of a character, `intercalate_splitOn` says that joining the pieces
gives the text back. `lower` and `upper` change the case of the ASCII letters, which is all that a comparison
with an ASCII word needs.
-/

namespace Balancer.Text

set_option autoImplicit false

/-- The pieces of a text between the occurrences of `sep`; there is always one. -/
def splitOn (sep : Char) : List Char → List (List Char)
  | [] => [[]]
  | c :: cs =>
    if c = sep then [] :: splitOn sep cs
    else match splitOn sep cs with
      | [] => [[c]]
      | piece :: rest => (c :: piece) :: rest

theorem splitOn_ne_nil (sep : Char) (cs : List Char) : splitOn sep cs ≠ [] := by
  cases cs with
  | nil => simp [splitOn]
  | cons c cs =>
    unfold splitOn
    split
    · simp
    · split <;> simp

/-- A separator starts a new piece, every other character belongs to the first piece of the rest. -/
theorem splitOn_cons (sep c : Char) (cs : List Char) : ∃ piece rest, splitOn sep cs = piece :: rest ∧
    splitOn sep (c :: cs) = if c = sep then [] :: piece :: rest else (c :: piece) :: rest := by
  obtain ⟨piece, rest, h⟩ := List.exists_cons_of_ne_nil (splitOn_ne_nil sep cs)
  refine ⟨piece, rest, h, ?_⟩
  rw [splitOn, h]

theorem intercalate_splitOn (sep : Char) (cs : List Char) : [sep].intercalate (splitOn sep cs) = cs := by
  induction cs with
  | nil => rfl
  | cons c cs ih =>
    obtain ⟨piece, rest, hcs, h⟩ := splitOn_cons sep c cs
    rw [hcs] at ih
    rw [h]
    by_cases hc : c = sep
    · subst hc
      rw [if_pos rfl, show List.intercalate [c] ([] :: piece :: rest) =
        c :: List.intercalate [c] (piece :: rest) from rfl, ih]
    · rw [if_neg hc, ← ih]
      cases rest <;> rfl

theorem not_mem_of_mem_splitOn (sep : Char) (cs : List Char) : ∀ piece ∈ splitOn sep cs, sep ∉ piece := by
  induction cs with
  | nil => simp [splitOn]
  | cons c cs ih =>
    obtain ⟨piece, rest, hcs, h⟩ := splitOn_cons sep c cs
    rw [hcs] at ih
    rw [h]
    by_cases hc : c = sep
    · simpa [hc] using ih
    · intro q hq
      rw [if_neg hc, List.mem_cons] at hq
      rcases hq with rfl | hq
      · simp [Ne.symm hc, ih piece (by simp)]
      · exact ih q (by simp [hq])

/-- The pieces of a text, as texts. -/
def pieces (sep : Char) (s : String) : List String := (splitOn sep s.toList).map String.ofList

/-- The part after the last occurrence of `sep`, or the whole text. -/
def afterLast (sep : Char) (s : String) : String :=
  ((pieces sep s).getLast?).getD s

/-- The parts before and after the last occurrence of `sep`; nothing before it if there is none. -/
def splitLast (sep : Char) (s : String) : String × String :=
  let ps := splitOn sep s.toList
  (String.ofList ([sep].intercalate ps.dropLast), String.ofList (ps.getLast?.getD []))

def lower (s : String) : String := String.ofList (s.toList.map Char.toLower)

def upper (s : String) : String := String.ofList (s.toList.map Char.toUpper)

/-- Whether a text starts with another. -/
def startsWith (start s : String) : Bool := start.toList.isPrefixOf s.toList

/-- Whether a text stands somewhere in another. -/
def isPart (part s : String) : Bool :=
  (List.range (s.length + 1)).any fun i => part.toList.isPrefixOf (s.toList.drop i)

/-- The rest of a text after its start, if it starts so. -/
def dropStart? (start s : String) : Option String :=
  if startsWith start s then some (String.ofList (s.toList.drop start.toList.length)) else none

end Balancer.Text
