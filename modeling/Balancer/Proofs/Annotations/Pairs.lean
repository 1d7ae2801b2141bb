import Balancer.Config.Environment
import Balancer.Proofs.Annotations
import Balancer.Proofs.Table
import Balancer.Proofs.Text
import Mathlib.Data.List.Basic

/-!
# The grammar of lists of pairs

Tags and attributes are given as `Key=Value` pairs between commas. One reader takes them from the environment,
in one pass, and another one from annotations, in several. They are the same reader (`readPairs_eq`).

* `Names part k v`, `Malformed part` : what a part of a list is; a part that is neither is blank;
* `LastNames parts k v` : the last part with a key gives it its value;
  `find?_reverse_filterMap` : so it is read;
* `Plain`, `Written k v part` : texts that can be written as keys and values, and the ways to
  write them (`Written.names`);
* `readPairs_grammar` : all of it together, for both readers.
-/

namespace Balancer

set_option autoImplicit false

namespace Annotations

/-- A part of a list is a key and a value on both sides of its one equals sign, with
white space around them. -/
def Names (part k v : String) : Prop :=
  ∃ as bs : List Char, part.toList = as ++ '=' :: bs ∧ '=' ∉ as ∧ '=' ∉ bs ∧
    Text.strip (.ofList as) = k ∧ Text.strip (.ofList bs) = v

/-- A part of a list that is not blank and does not have exactly one equals sign. -/
def Malformed (part : String) : Prop := Text.strip part ≠ "" ∧ part.toList.count '=' ≠ 1

instance : DecidablePred Malformed :=
  fun part => inferInstanceAs (Decidable (Text.strip part ≠ "" ∧ part.toList.count '=' ≠ 1))

/-- Of the parts with a key the last one has the value. -/
def LastNames (parts : List String) (k v : String) : Prop :=
  ∃ before part after, parts = before ++ part :: after ∧ Names part k v ∧ ∀ p ∈ after, ∀ w, ¬ Names p k w

/-- A text without commas and equals signs, and without white space at its ends. -/
structure Plain (s : String) : Prop where
  comma : ',' ∉ s.toList
  equals : '=' ∉ s.toList
  starts : ∀ c ∈ s.toList.head?, Text.isBlank c = false
  ends : ∀ c ∈ s.toList.getLast?, Text.isBlank c = false

def Blank (s : String) : Prop := ∀ c ∈ s.toList, Text.isBlank c = true

/-- A part of a list is a key, an equals sign and a value, with any white space around them. -/
def Written (k v part : String) : Prop :=
  ∃ a b c d, Blank a ∧ Blank b ∧ Blank c ∧ Blank d ∧ part = a ++ k ++ b ++ "=" ++ c ++ v ++ d

section

variable {part k v raw : String} {ps : List String}

/-! ## Parts -/

theorem pair?_eq_some_iff : pair? part = some (k, v) ↔ Names part k v := by
  unfold pair? Text.pieces
  constructor
  · intro h
    split at h
    · rename_i x y hpieces
      obtain ⟨xs, ps, hsplit, rfl, hps⟩ := List.map_eq_cons_iff.1 hpieces
      obtain ⟨ys, qs, rfl, rfl, hqs⟩ := List.map_eq_cons_iff.1 hps
      rw [List.map_eq_nil_iff.1 hqs] at hsplit
      obtain ⟨hpart, hxs, hys⟩ := Text.splitOn_eq_pair_iff.1 hsplit
      obtain ⟨rfl, rfl⟩ := Prod.mk.inj (Option.some.inj h)
      exact ⟨xs, ys, hpart, hxs, hys, rfl, rfl⟩
    · cases h
  · rintro ⟨as, bs, hpart, has, hbs, rfl, rfl⟩
    rw [Text.splitOn_eq_pair_iff.2 ⟨hpart, has, hbs⟩]
    rfl

theorem isNone_pair?_iff : (pair? part).isNone = true ↔ part.toList.count '=' ≠ 1 := by
  have hlength := Text.length_splitOn '=' part.toList
  unfold pair? Text.pieces
  generalize Text.splitOn '=' part.toList = ps at hlength
  match ps, hlength with
  | [], h => simp at h
  | [x], h => simp at h ⊢; omega
  | [x, y], h => simp at h ⊢; omega
  | x :: y :: z :: ps, h => simp at h ⊢; omega

theorem not_isBlank_equals : Text.isBlank '=' = false := by decide

theorem notMem_of_blank {cs : List Char} (h : ∀ c ∈ cs, Text.isBlank c = true) : '=' ∉ cs :=
  fun hmem => by simpa [not_isBlank_equals] using h _ hmem

theorem Names.of_strip (h : Names (Text.strip part) k v) : Names part k v := by
  obtain ⟨as, bs, heq, has, hbs, rfl, rfl⟩ := h
  obtain ⟨l, r, hpart, hl, hr⟩ := Text.exists_strip part
  refine ⟨l ++ as, bs ++ r, ?_, ?_, ?_, ?_, ?_⟩
  · rw [hpart, heq]
    simp
  · exact fun hmem => (List.mem_append.1 hmem).elim (notMem_of_blank hl) has
  · exact fun hmem => (List.mem_append.1 hmem).elim hbs (notMem_of_blank hr)
  · simpa using Text.strip_append (r := []) as hl (by simp)
  · simpa using Text.strip_append (l := []) bs (by simp) hr

theorem count_strip (part : String) : (Text.strip part).toList.count '=' = part.toList.count '=' := by
  obtain ⟨l, r, hpart, hl, hr⟩ := Text.exists_strip part
  rw [hpart, List.count_append, List.count_append, List.count_eq_zero.2 (notMem_of_blank hl),
    List.count_eq_zero.2 (notMem_of_blank hr)]
  omega

/-- White space around a part does not count. -/
theorem pair?_strip (part : String) : pair? (Text.strip part) = pair? part := by
  cases h : pair? (Text.strip part) with
  | some e => exact (pair?_eq_some_iff.2 (pair?_eq_some_iff.1 h).of_strip).symm
  | none =>
    have hcount := isNone_pair?_iff.1 (Option.isNone_iff_eq_none.2 h)
    rw [count_strip] at hcount
    exact (Option.isNone_iff_eq_none.1 (isNone_pair?_iff.2 hcount)).symm

theorem pair?_of_blank (h : Text.strip part = "") : pair? part = none := by
  rw [← pair?_strip, h]
  rfl

/-! ## Lists of parts -/

/-- The parts that are complained about. -/
def complaints (raw : String) : List String := ((Text.pieces ',' raw).filter (Malformed ·)).map Text.strip

/-- The pairs of a list, in its order. -/
def pairsIn (raw : String) : List (String × String) := (Text.pieces ',' raw).filterMap pair?

theorem filter_parts (raw : String) : (parts raw).filter (fun p => (pair? p).isNone) = complaints raw := by
  unfold parts complaints
  rw [List.filter_filter, List.filter_map]
  refine congrArg (List.map Text.strip) (List.filter_congr fun p _ => ?_)
  rw [Function.comp_apply, pair?_strip, Bool.eq_iff_iff, Bool.and_eq_true, isNone_pair?_iff,
    decide_eq_true_eq, decide_eq_true_eq, Malformed, and_comm]

theorem filterMap_parts (raw : String) : (parts raw).filterMap pair? = pairsIn raw := by
  unfold parts pairsIn
  rw [List.filterMap_filter, List.filterMap_map]
  refine List.filterMap_congr fun p _ => ?_
  by_cases h : Text.strip p = ""
  · simp [h, pair?_of_blank h]
  · simp [h, pair?_strip]

theorem pairsOf_parts (raw : String) :
    pairsOf (parts raw) = if complaints raw = [] then .ok (.ofList (pairsIn raw)) else .error
      (.keyValues (complaints raw)) := by
  unfold pairsOf
  rw [filter_parts, filterMap_parts]
  cases complaints raw <;> rfl

theorem slice_eq {domain name : String} {fs : Fields}
    (h : Entries.find? (key domain name) fs = some (.text raw)) :
    slice domain name (.object fs) = .ok (parts raw) := by
  unfold slice
  rw [raw_object, Fields.get, h]
  rfl

/-! ## In one pass -/

/-- One more part of a list of pairs that is not blank. -/
def keep (read : Config.Pairs) (part : String) : Config.Pairs :=
  match pair? part with
  | some e => { read with table := read.table.insert e.1 e.2 }
  | none => { read with bad := part :: read.bad }

theorem add_eq (read : Config.Pairs) (part : List Char) :
    read.add part = if Text.strip (.ofList part) = "" then read else keep read
      (Text.strip (.ofList part)) := by
  unfold Config.Pairs.add keep pair? Text.pieces Text.strip
  rw [String.toList_ofList]
  cases Text.stripOf Text.isBlank part with
  | nil => rfl
  | cons c cs =>
    rw [if_neg (by simp), String.toList_ofList]
    dsimp only
    generalize Text.splitOn '=' (c :: cs) = ps
    match ps with
    | [] => rfl
    | [_] => rfl
    | [_, _] => rfl
    | _ :: _ :: _ :: _ => rfl

theorem foldl_add (raw : String) (read : Config.Pairs) :
    (Text.splitOn ',' raw.toList).foldl Config.Pairs.add read = (parts raw).foldl keep read := by
  unfold parts Text.pieces
  rw [List.foldl_filter, List.foldl_map, List.foldl_map]
  refine congrArg (List.foldl · read _) (funext₂ fun read part => ?_)
  rw [add_eq]
  by_cases h : Text.strip (.ofList part) = "" <;> simp [h]

/-- The pairs are kept, and the parts that are none, the last first. -/
theorem foldl_keep (ps : List String) (read : Config.Pairs) :
    ps.foldl keep read = ⟨(ps.filterMap pair?).foldl (fun t e => t.insert e.1 e.2) read.table,
      (ps.filter fun p => (pair? p).isNone).reverse ++ read.bad⟩ := by
  induction ps generalizing read with
  | nil => rfl
  | cons p ps ih =>
    rw [List.foldl_cons, ih, keep]
    cases h : pair? p with
    | some e => simp [h]
    | none => simp [h]

/-- Both readers keep the same pairs and complain about the same parts. -/
theorem readPairs_eq (raw : String) : Config.readPairs raw = pairsOf (parts raw) := by
  have hread : (Text.splitOn ',' raw.toList).foldl Config.Pairs.add {} =
      ⟨.ofList (pairsIn raw), (complaints raw).reverse⟩ := by
    rw [foldl_add, foldl_keep, filter_parts, filterMap_parts, ← Table.foldl_insert_empty, List.append_nil]
  unfold Config.readPairs
  rw [hread, pairsOf_parts]
  simp only [List.reverse_eq_nil_iff, List.reverse_reverse]

/-! ## What is read -/

theorem complaints_eq_nil_iff : complaints raw = [] ↔ ∀ part ∈ Text.pieces ',' raw, ¬ Malformed part := by
  unfold complaints
  rw [List.map_eq_nil_iff, List.filter_eq_nil_iff]
  simp only [decide_eq_true_eq]

theorem isOk_readPairs_iff :
    (∃ t, Config.readPairs raw = .ok t) ↔ ∀ part ∈ Text.pieces ',' raw, ¬ Malformed part := by
  rw [readPairs_eq, pairsOf_parts, ← complaints_eq_nil_iff]
  by_cases h : complaints raw = []
  · rw [if_pos h]
    exact iff_of_true ⟨_, rfl⟩ h
  · rw [if_neg h]
    exact iff_of_false nofun h

theorem lastNames_cons_iff {p : String} : LastNames (p :: ps) k v ↔
    LastNames ps k v ∨ Names p k v ∧ ∀ q ∈ ps, ∀ w, ¬ Names q k w := by
  constructor
  · rintro ⟨before, part, after, heq, hnames, hafter⟩
    cases before with
    | nil =>
      obtain ⟨rfl, rfl⟩ := List.cons.inj heq
      exact .inr ⟨hnames, hafter⟩
    | cons q before =>
      obtain ⟨rfl, rfl⟩ := List.cons.inj heq
      exact .inl ⟨before, part, after, rfl, hnames, hafter⟩
  · rintro (⟨before, part, after, rfl, hnames, hafter⟩ | ⟨hnames, hnone⟩)
    · exact ⟨p :: before, part, after, rfl, hnames, hafter⟩
    · exact ⟨[], p, ps, rfl, hnames, hnone⟩

theorem LastNames.exists_names (h : LastNames ps k v) : ∃ p ∈ ps, Names p k v := by
  obtain ⟨before, part, after, rfl, hnames, -⟩ := h
  exact ⟨part, by simp, hnames⟩

theorem not_names_of_find? (h : Entries.find? k (ps.filterMap pair?).reverse = none) :
    ∀ p ∈ ps, ∀ w, ¬ Names p k w := by
  intro p hp w hnames
  have hmem : (k, w) ∈ (ps.filterMap pair?).reverse :=
    List.mem_reverse.2 (List.mem_filterMap.2 ⟨p, hp, pair?_eq_some_iff.2 hnames⟩)
  have hne := Entries.find?_eq_none_iff.1 h _ hmem
  simp at hne

/-- Of the pairs with a key, the last one counts. -/
theorem find?_reverse_filterMap (ps : List String) (k v : String) :
    Entries.find? k (ps.filterMap pair?).reverse = some v ↔ LastNames ps k v := by
  induction ps generalizing v with
  | nil => exact iff_of_false (by simp [Entries.find?]) fun h => by simpa using h.exists_names
  | cons p ps ih =>
    rw [lastNames_cons_iff, ← ih, ← pair?_eq_some_iff]
    cases hp : pair? p with
    | none => simp [hp]
    | some e =>
      rw [List.filterMap_cons_some hp, List.reverse_cons, Entries.find?_append]
      cases hps : Entries.find? k (ps.filterMap pair?).reverse with
      | some w =>
        obtain ⟨q, hq, hnames⟩ := ((ih w).1 hps).exists_names
        exact ⟨.inl, fun h => h.resolve_right fun h => h.2 q hq w hnames⟩
      | none =>
        have hone : Entries.find? k [e] = some v ↔ e = (k, v) := by
          rw [Prod.ext_iff]
          simp [Entries.find?]
        rw [Option.none_or, hone, Option.some.injEq]
        exact ⟨fun h => .inr ⟨h, not_names_of_find? hps⟩,
          fun h => (h.resolve_left (Option.some_ne_none v).symm).1⟩

/-- A written pair is read. -/
theorem Written.names (hk : Plain k) (hv : Plain v) (h : Written k v part) : Names part k v := by
  obtain ⟨a, b, c, d, ha, hb, hc, hd, rfl⟩ := h
  have hstrip : ∀ {s : String}, Plain s → Text.strip s = s := fun {s} hs => by
    rw [Text.strip, Text.stripOf_eq_self _ _ hs.starts hs.ends, String.ofList_toList]
  refine ⟨a.toList ++ k.toList ++ b.toList, c.toList ++ v.toList ++ d.toList, by simp, ?_, ?_, ?_, ?_⟩
  · simp [notMem_of_blank ha, notMem_of_blank hb, hk.equals]
  · simp [notMem_of_blank hc, notMem_of_blank hd, hv.equals]
  · rw [Text.strip_append _ ha hb, String.ofList_toList, hstrip hk]
  · rw [Text.strip_append _ hc hd, String.ofList_toList, hstrip hv]

theorem Names.count_eq (h : Names part k v) : part.toList.count '=' = 1 := by
  by_contra hcount
  have hnone := isNone_pair?_iff.2 hcount
  rw [pair?_eq_some_iff.2 h] at hnone
  cases hnone

theorem Written.comma (hk : Plain k) (hv : Plain v) (h : Written k v part) : ',' ∉ part.toList := by
  have hblank : ∀ {s : String}, Blank s → ',' ∉ s.toList := fun hs hmem => absurd (hs _ hmem) (by decide)
  obtain ⟨a, b, c, d, ha, hb, hc, hd, rfl⟩ := h
  simp [hblank ha, hblank hb, hblank hc, hblank hd, hk.comma, hv.comma]

theorem filterMap_written {es : List (String × String)} (hplain : ∀ e ∈ es, Plain e.1 ∧ Plain e.2)
    (h : List.Forall₂ (fun e part => Written e.1 e.2 part) es ps) :
    ps.filterMap pair? = es ∧ ∀ p ∈ ps, ',' ∉ p.toList ∧ ¬ Malformed p := by
  induction h with
  | nil => exact ⟨rfl, nofun⟩
  | cons hwritten _ ih =>
    obtain ⟨⟨hk, hv⟩, hrest⟩ := List.forall_mem_cons.1 hplain
    obtain ⟨hpairs, hps⟩ := ih hrest
    have hnames := hwritten.names hk hv
    refine ⟨?_, List.forall_mem_cons.2 ⟨⟨hwritten.comma hk hv, fun hbad => hbad.2 hnames.count_eq⟩, hps⟩⟩
    rw [List.filterMap_cons_some (pair?_eq_some_iff.2 hnames), hpairs]

theorem pieces_intercalate (h : ∀ p ∈ ps, ',' ∉ p.toList) (hne : ps ≠ []) :
    Text.pieces ',' (",".intercalate ps) = ps := by
  have hsplit : Text.splitOn ',' (",".intercalate ps).toList = ps.map String.toList := by
    rw [String.toList_intercalate]
    exact Text.splitOn_intercalate (by simpa using h) (by simpa using hne)
  rw [Text.pieces, hsplit, List.map_map]
  simp

/-- What is written is read. -/
theorem readPairs_written {t : Table String String} (hplain : ∀ e ∈ t.entries, Plain e.1 ∧ Plain e.2)
    (h : List.Forall₂ (fun e part => Written e.1 e.2 part) t.entries ps) :
    Config.readPairs (",".intercalate ps) = .ok t := by
  obtain ⟨hpairs, hps⟩ := filterMap_written hplain h
  by_cases hne : ps = []
  · obtain ⟨es, hd⟩ := t
    subst hne
    obtain rfl : [] = es := hpairs
    rfl
  · have hpieces := pieces_intercalate (fun p hp => (hps p hp).1) hne
    have hnone : complaints (",".intercalate ps) = [] := by
      rw [complaints_eq_nil_iff, hpieces]
      exact fun p hp => (hps p hp).2
    rw [readPairs_eq, pairsOf_parts, if_pos hnone, pairsIn, hpieces, hpairs, Table.ofList_entries]

end

/-- The two readers of `Key=Value` pairs are one. A list is refused just if some part is malformed, and the
fault tells which are. Else every key has the value that it has last. Every table of plain texts is read back,
however it is written. -/
theorem readPairs_grammar (raw : String) :
    (∀ domain name fs, Entries.find? (key domain name) fs = some (.text raw) →
      pairs domain name (.object fs) = (Config.readPairs raw).mapError .configuration) ∧
    ((∃ fault, Config.readPairs raw = .error fault) ↔ ∃ part ∈ Text.pieces ',' raw, Malformed part) ∧
    (∀ fault, Config.readPairs raw = .error fault →
      fault = .keyValues (((Text.pieces ',' raw).filter (Malformed ·)).map Text.strip)) ∧
    (∀ t, Config.readPairs raw = .ok t → ∀ k v, t.get? k = some v ↔ LastNames (Text.pieces ',' raw) k v) ∧
    ∀ (t : Table String String) (written : List String), (∀ e ∈ t.entries, Plain e.1 ∧ Plain e.2) →
      List.Forall₂ (fun e part => Written e.1 e.2 part) t.entries written → raw = ",".intercalate written →
      Config.readPairs raw = .ok t := by
  have hread := (readPairs_eq raw).trans (pairsOf_parts raw)
  refine ⟨fun domain name fs hraw => ?_, ?_, fun fault hfault => ?_, fun t ht k v => ?_, ?_⟩
  · rw [pairs, slice_eq hraw, readPairs_eq]
    rfl
  · rw [hread]
    by_cases hnone : complaints raw = []
    · rw [if_pos hnone]
      rw [complaints_eq_nil_iff] at hnone
      exact iff_of_false nofun fun ⟨part, hpart, hbad⟩ => hnone part hpart hbad
    · rw [if_neg hnone]
      rw [complaints_eq_nil_iff] at hnone
      push Not at hnone
      exact iff_of_true ⟨_, rfl⟩ hnone
  · rw [hread] at hfault
    split at hfault
    · cases hfault
    · exact (Except.error.inj hfault).symm
  · rw [hread] at ht
    split at ht
    · rw [← Except.ok.inj ht, Table.get?_ofList]
      exact find?_reverse_filterMap _ k v
    · cases ht
  · rintro t written hplain h rfl
    exact readPairs_written hplain h

def sampleTags : Table String String := .ofList [("team", "a b"), ("stage", "")]

theorem written_sampleTags : (∀ e ∈ sampleTags.entries, Plain e.1 ∧ Plain e.2) ∧
    List.Forall₂ (fun e part => Written e.1 e.2 part) sampleTags.entries ["team = a b", " stage="] := by
  have hteam : Plain "team" ∧ Plain "a b" :=
    ⟨⟨by simp, by simp, by simp [Text.isBlank], by simp [Text.isBlank]⟩, by simp, by simp, by
      simp [Text.isBlank], by simp [Text.isBlank]⟩
  have hstage : Plain "stage" ∧ Plain "" :=
    ⟨⟨by simp, by simp, by simp [Text.isBlank], by simp [Text.isBlank]⟩, by simp, by simp, by simp, by simp⟩
  have hplain : ∀ e ∈ sampleTags.entries, Plain e.1 ∧ Plain e.2 := by
    intro e he
    rcases List.mem_pair.1 he with rfl | rfl
    · exact hteam
    · exact hstage
  have hblank : Blank " " := by simp [Blank, Text.isBlank]
  have hnone : Blank "" := nofun
  exact ⟨hplain, .cons ⟨"", " ", " ", "", hnone, hblank, hblank, hnone, rfl⟩
    (.cons ⟨" ", "", "", "", hblank, hnone, hnone, hnone, rfl⟩ .nil)⟩

theorem readPairs_grammar_sample :
    (Config.readPairs "team = a b, stage=" = .ok sampleTags ∧
      pairs "nlb" "tags" (.object [("nlb/tags", .text "team = a b, stage=")]) = .ok sampleTags ∧
      ∀ k v, sampleTags.get? k = some v ↔ LastNames ["team = a b", " stage="] k v) ∧
    ∃ fault, Config.readPairs "team=a=b, stage ,,x=1" = .error fault ∧
      fault = .keyValues ["team=a=b", "stage"] := by
  obtain ⟨hsame, -, -, hlast, hwritten⟩ := readPairs_grammar "team = a b, stage="
  have hread := hwritten sampleTags _ written_sampleTags.1 written_sampleTags.2 rfl
  refine ⟨⟨hread, ?_, hlast _ hread⟩, ?_⟩
  · rw [hsame "nlb" "tags" _ rfl, hread]
    rfl
  · obtain ⟨-, hrefused, hfault, -⟩ := readPairs_grammar "team=a=b, stage ,,x=1"
    obtain ⟨fault, h⟩ := hrefused.2 ⟨" stage ", by decide, by decide⟩
    exact ⟨fault, h, (hfault fault h).trans (congrArg ConfigurationFault.keyValues (by decide))⟩

end Annotations

end Balancer
