import Balancer.Text.Blank
import Balancer.Text.Split
import Mathlib.Data.List.TakeWhile

/-!
# Pieces and ends of texts

* `splitOn_eq_splitOn` : cutting a text is the cutting of lists, whose lemmas apply to it;
* `splitOn_intercalate`, `splitOn_eq_pair_iff` : what is joined is cut again, and what has two pieces;
* `startsWith_iff`, `dropStart?_eq_some_iff` : what starts with a text, and what is left of it;
* `stripOf_append`, `strip_append` : white space at the ends of a text does not count; `exists_strip`,
  `strip_strip` : none is left there.
-/

namespace Balancer.Text

set_option autoImplicit false

/-! ## Pieces -/

section

variable {sep : Char} {as bs cs : List Char}

theorem splitOn_eq_splitOn (sep : Char) (cs : List Char) : splitOn sep cs = cs.splitOn sep := by
  induction cs with
  | nil => simp [splitOn]
  | cons c cs ih =>
    obtain ⟨piece, rest, hcs, h⟩ := splitOn_cons sep c cs
    rw [h, List.splitOn_cons_eq_if_modifyHead, ← ih, hcs]
    simp

theorem splitOn_append_cons (sep : Char) (as bs : List Char) :
    splitOn sep (as ++ sep :: bs) = splitOn sep as ++ splitOn sep bs := by
  rw [splitOn_eq_splitOn, splitOn_eq_splitOn, splitOn_eq_splitOn, List.splitOn_append_cons_self]

theorem splitOn_of_notMem (h : sep ∉ cs) : splitOn sep cs = [cs] := by
  rw [splitOn_eq_splitOn, List.splitOn_eq_singleton h]

theorem splitOn_intercalate {ps : List (List Char)} (h : ∀ p ∈ ps, sep ∉ p) (hne : ps ≠ []) :
    splitOn sep ([sep].intercalate ps) = ps := by
  rw [splitOn_eq_splitOn, List.splitOn_intercalate sep h hne]

theorem splitOn_eq_pair_iff : splitOn sep cs = [as, bs] ↔ cs = as ++ sep :: bs ∧ sep ∉ as ∧ sep ∉ bs := by
  constructor
  · intro h
    have hjoined := intercalate_splitOn sep cs
    have hfree := not_mem_of_mem_splitOn sep cs
    rw [h] at hjoined hfree
    exact ⟨by simpa using hjoined.symm, hfree as (by simp), hfree bs (by simp)⟩
  · rintro ⟨rfl, has, hbs⟩
    rw [splitOn_append_cons, splitOn_of_notMem has, splitOn_of_notMem hbs]
    rfl

/-- A text has one more piece than separators. -/
theorem length_splitOn (sep : Char) (cs : List Char) : (splitOn sep cs).length = cs.count sep + 1 := by
  induction cs with
  | nil => rfl
  | cons c cs ih =>
    obtain ⟨piece, rest, hcs, h⟩ := splitOn_cons sep c cs
    rw [hcs] at ih
    rw [h]
    by_cases hc : c = sep <;> simpa [hc] using ih

theorem afterLast_append (sep : Char) (start : String) {rest : String} (h : sep ∉ rest.toList) :
    afterLast sep (start ++ String.singleton sep ++ rest) = rest := by
  have htext : (start ++ String.singleton sep ++ rest).toList = start.toList ++ sep :: rest.toList := by simp
  unfold afterLast pieces
  rw [htext, splitOn_append_cons, splitOn_of_notMem h, List.map_append, List.map_singleton,
    List.getLast?_concat]
  simp

end

/-! ## Ends -/

section

variable {p : Char → Bool} {l r : List Char}

theorem stripOf_append (cs : List Char) (hl : ∀ c ∈ l, p c = true) (hr : ∀ c ∈ r, p c = true) :
    stripOf p (l ++ cs ++ r) = stripOf p cs := by
  have hr' : ∀ c ∈ r.reverse, p c = true := fun c hc => hr c (List.mem_reverse.1 hc)
  unfold stripOf
  rw [List.append_assoc, List.dropWhile_append_of_pos hl, List.dropWhile_append]
  split
  · rename_i hcs
    rw [List.isEmpty_iff.1 hcs, List.dropWhile_eq_nil_iff.2 hr]
  · rw [List.reverse_append, List.dropWhile_append_of_pos hr']

theorem strip_append (cs : List Char) (hl : ∀ c ∈ l, isBlank c = true) (hr : ∀ c ∈ r, isBlank c = true) :
    strip (.ofList (l ++ cs ++ r)) = strip (.ofList cs) := by
  rw [strip, strip, String.toList_ofList, String.toList_ofList, stripOf_append cs hl hr]

/-- What is stripped of a text are characters of the class at its ends. -/
theorem exists_stripOf (p : Char → Bool) (cs : List Char) :
    ∃ l r, cs = l ++ stripOf p cs ++ r ∧ (∀ c ∈ l, p c = true) ∧ ∀ c ∈ r, p c = true := by
  refine ⟨cs.takeWhile p, ((cs.dropWhile p).reverse.takeWhile p).reverse, ?_, fun _ => List.mem_takeWhile_imp,
    fun c hc => List.mem_takeWhile_imp (List.mem_reverse.1 hc)⟩
  rw [stripOf, List.append_assoc, ← List.reverse_append, List.takeWhile_append_dropWhile,
    List.reverse_reverse, List.takeWhile_append_dropWhile]

theorem exists_strip (s : String) :
    ∃ l r, s.toList = l ++ (strip s).toList ++ r ∧ (∀ c ∈ l, isBlank c = true) ∧
    ∀ c ∈ r, isBlank c = true := by
  rw [strip, String.toList_ofList]
  exact exists_stripOf isBlank s.toList

theorem stripOf_stripOf (p : Char → Bool) (cs : List Char) : stripOf p (stripOf p cs) = stripOf p cs := by
  obtain ⟨l, r, hcs, hl, hr⟩ := exists_stripOf p cs
  have hstrip := stripOf_append (stripOf p cs) hl hr
  rw [← hcs] at hstrip
  exact hstrip.symm

theorem strip_strip (s : String) : strip (strip s) = strip s := by
  rw [strip, strip, String.toList_ofList, stripOf_stripOf]

end

/-! ## Starts -/

theorem startsWith_iff {start s : String} : startsWith start s = true ↔ ∃ rest, s = start ++ rest := by
  unfold startsWith
  rw [List.isPrefixOf_iff_prefix]
  constructor
  · rintro ⟨cs, hcs⟩
    refine ⟨.ofList cs, ?_⟩
    rw [← String.toList_inj, String.toList_append, String.toList_ofList, hcs]
  · rintro ⟨rest, rfl⟩
    exact ⟨rest.toList, String.toList_append.symm⟩

theorem dropStart?_eq_some_iff {start s rest : String} :
    dropStart? start s = some rest ↔ s = start ++ rest := by
  unfold dropStart?
  constructor
  · intro h
    split at h
    · rename_i hstart
      obtain ⟨rest', rfl⟩ := startsWith_iff.1 hstart
      rw [← Option.some.inj h, String.toList_append, List.drop_left, String.ofList_toList]
    · cases h
  · rintro rfl
    rw [if_pos (startsWith_iff.2 ⟨rest, rfl⟩), String.toList_append, List.drop_left, String.ofList_toList]

end Balancer.Text
