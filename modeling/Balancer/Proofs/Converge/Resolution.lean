import Balancer.Proofs.Converge.Subnets
import Balancer.Proofs.Paired
import Mathlib.Data.List.Nodup

/-!
# Which subnets a request resolves to

What is requested are identifiers, which stand for themselves, and names, which are looked up all at once. A
result is told from an incomplete one by its length alone.

* `Subnet`, `Subnet.Describes` : a subnet with its identifier and its name, and what describes it in a cloud;
* `run_resolveSubnets` : the result are the requested identifiers and those of all subnets that go by a name,
  in order, or an error if these are not as many as were requested;
* `Faithful` : every entry of a request accounts for one identifier of the result. Where the numbers agree
  that is so just if no name is missing or shared and nothing is named twice (`unambiguous_of_faithful`,
  `faithful_of_unambiguous`);
* `resolution_kept_iff` : so resolution keeps its word just if no ambiguity makes up for what is missing.
-/

namespace Balancer

set_option autoImplicit false

namespace Converge

/-- A subnet that may have a name. -/
structure Subnet where
  id : String
  name : Option String
  deriving DecidableEq

namespace Subnet

/-- What describes a subnet: its identifier and its tag `Name`, which is missing or holds nothing if
the subnet has no name. -/
structure Describes (r : Subnet) (v : Value) : Prop where
  id : v.item "SubnetId" = .ok (.text r.id)
  tags : ∃ labels, (v.get "Tags" >>= readTags) = .ok labels ∧
    match r.name with
    | some n => n ≠ "" ∧ labels.get? (.text "Name") = some (.text n)
    | none => ((labels.get? (.text "Name")).getD .null).holds = false

/-- A subnet goes by its identifier and by its name. -/
def goesBy (r : Subnet) (entry : String) : Bool := r.id == entry || r.name == some entry

end Subnet

/-- The requested identifiers. -/
def identifiers (requested : List String) : List String := requested.filter (Text.startsWith "subnet-")

/-- The requested names. -/
def lookedUp (requested : List String) : List String := requested.filter fun e => !Text.startsWith "subnet-" e

/-- The subnets that go by a requested name. -/
def found (rows : List Subnet) (requested : List String) : List Subnet :=
  rows.filter fun r => (lookedUp requested).any r.goesBy

/-- An entry of a request stands for a subnet: itself if it is an identifier, else one that goes by it. -/
def StandsFor (rows : List Subnet) (entry id : String) : Prop :=
  if Text.startsWith "subnet-" entry then id = entry else ∃ r ∈ rows, r.goesBy entry ∧ r.id = id

/-- Every entry of a request stands for one identifier of the result, which has no others, none
twice and all in order. -/
structure Faithful (rows : List Subnet) (requested ids : List String) : Prop where
  sorted : ids.Pairwise (· ≤ ·)
  nodup : ids.Nodup
  exact : ∀ e ∈ requested, ∃! id, id ∈ ids ∧ StandsFor rows e id
  accounted : ∃ meant, List.Forall₂ (StandsFor rows) requested meant ∧ ids.Perm meant

/-- No identifier is requested twice, every name is that of one subnet, and not of one whose
identifier is requested too. -/
structure Unambiguous (rows : List Subnet) (requested : List String) : Prop where
  once : (identifiers requested).Nodup
  alone : ∀ e ∈ lookedUp requested, ∃! r, r ∈ rows ∧ r.goesBy e = true
  apart : ∀ r ∈ found rows requested, r.id ∉ identifiers requested

/-- A result is faithful, and there is none if a name is that of no subnet. -/
structure ResolutionKept (rows : List Subnet) (requested : List String)
    (result : Except Error (List Value)) : Prop where
  faithful : ∀ vs, result = .ok vs → ∃ ids : List String, vs = ids.map .text ∧ Faithful rows requested ids
  refused : (∃ e ∈ lookedUp requested, ∀ r ∈ rows, r.goesBy e = false) →
    ∃ fault, result = .error (.configuration fault)

section

variable {rows : List Subnet} {requested ids names : List String} {clusterName scheme v : Value}
  {vs : List Value} {r : Subnet} {m : Memory}

/-! ## Looking names up -/

theorem any_goesBy (r : Subnet) (names : List String) :
    names.any r.goesBy = (decide (r.id ∈ names) || r.name.any fun n => decide (n ∈ names)) := by
  rw [Bool.eq_iff_iff, List.any_eq_true, Bool.or_eq_true, decide_eq_true_eq, Option.any_eq_true]
  unfold Subnet.goesBy
  constructor
  · rintro ⟨e, he, hgo⟩
    rcases Bool.or_eq_true_iff.1 hgo with hid | hname
    · exact .inl (eq_of_beq hid ▸ he)
    · exact .inr ⟨e, eq_of_beq hname, decide_eq_true he⟩
  · rintro (hid | ⟨n, hn, hmem⟩)
    · exact ⟨r.id, hid, by simp⟩
    · exact ⟨n, of_decide_eq_true hmem, by simp [hn]⟩

theorem Subnet.Describes.isNamed (h : r.Describes v) (names : List String) :
    Resources.isNamed (.list (names.map .text)) v = .ok (names.any r.goesBy) := by
  obtain ⟨labels, htags, hname⟩ := h.tags
  obtain ⟨tags, hget, hread⟩ := bind_eq_ok_iff.1 htags
  rw [any_goesBy]
  unfold Resources.isNamed
  simp only [hget, hread, h.id, Value.has_texts, bind, Except.bind]
  by_cases hid : r.id ∈ names
  · simp [hid, pure, Except.pure]
  · cases hr : r.name with
    | none =>
      rw [hr] at hname
      simp [hid, hname, pure, Except.pure]
    | some n =>
      rw [hr] at hname
      have hholds : (Value.text n).holds = true := by simpa [Value.holds] using hname.1
      simp [hid, hname.2, hholds, Value.has_texts]

/-- Of whatever describes subnets, that of the subnets which go by a name is found. -/
theorem run_subnetsNamed {ρ : Type} {R : ρ → Value → Prop} {subnet : ρ → Subnet} {rows : List ρ}
    (hR : ∀ r v, R r v → (subnet r).Describes v) (hrows : List.Forall₂ R rows m.resources.subnets)
    (names : List String) :
    ∃ vs, (subnetsNamed (names.map .text)).run Memory.bare m = (.ok vs, m) ∧
      List.Forall₂ R (rows.filter fun r => names.any (subnet r).goesBy) vs := by
  unfold subnetsNamed
  by_cases hnames : names = []
  · subst hnames
    refine ⟨[], rfl, ?_⟩
    simp
  · have hpaired := paired_filterM hrows fun r v h => ((hR r v h).isNamed names).symm
    rw [filterM_ok fun _ _ => rfl] at hpaired
    obtain ⟨vs, hvs, hfound⟩ := hpaired.of_ok
    refine ⟨vs, ?_, hfound⟩
    rw [if_neg (by simpa using hnames), Program.run_answer]
    show m.perform _ = _
    rw [Memory.perform_eq, Resources.perform_subnetsNamed, hvs,
      Resources.recorded_of_reads rfl, List.append_nil]

/-- What is requested is resolved to as many identifiers, or refused. -/
theorem run_resolveSubnets (hrows : List.Forall₂ Subnet.Describes rows m.resources.subnets)
    (hne : requested ≠ []) (clusterName scheme : Value) :
    ∃ ids : List String, ids.Perm (identifiers requested ++ (found rows requested).map Subnet.id) ∧
      ids.Pairwise (· ≤ ·) ∧
      (resolveSubnets clusterName scheme (textList requested)).run Memory.bare m =
        (if ids.length = requested.length then .ok (ids.map .text)
          else .error (.configuration (.subnetsUnresolved requested ids)), m) := by
  obtain ⟨described, hrun, hdescribed⟩ := run_subnetsNamed (fun _ _ h => h) hrows (lookedUp requested)
  obtain ⟨ids, hsorted, hperm, hpairwise⟩ :=
    Value.sorted_texts (identifiers requested ++ (found rows requested).map Subnet.id)
  refine ⟨ids, hperm, hpairwise, ?_⟩
  have hids : (requested.map Value.text).filterM isSubnetId = .ok ((identifiers requested).map .text) :=
    filterM_map_ok fun _ _ => rfl
  have hnames : (requested.map Value.text).filterM (fun s => do return !(← isSubnetId s)) =
      (.ok ((lookedUp requested).map .text) : Except Error (List Value)) := filterM_map_ok fun _ _ => rfl
  have hfound : described.mapM (·.item "SubnetId") =
      .ok (((found rows requested).map Subnet.id).map .text) := by
    rw [← mapM_eq hdescribed (f := fun r => .ok (.text r.id)) fun r v h => h.id.symm,
      mapM_eq_ok_iff, List.map_map, List.forall₂_map_right_iff]
    exact List.forall₂_same.2 fun _ _ => rfl
  rw [resolveSubnets_eq, if_neg (by simpa [textList, Value.holds] using hne)]
  have helements : (textList requested).elements = .ok (requested.map .text) := rfl
  have hlength : (textList requested).length = .ok requested.length := by
    show Except.ok (requested.map Value.text).length = _
    rw [List.length_map]
  rw [List.map_append] at hsorted
  rw [Program.run_lift_bind helements, Program.run_lift_bind hids, Program.run_lift_bind hnames,
    Program.run_bind, hrun]
  simp only
  rw [Program.run_lift_bind hfound, Program.run_lift_bind hsorted,
    Program.run_lift_bind hlength, List.length_map]
  by_cases hlen : ids.length = requested.length
  · rw [if_neg (by simpa using hlen), if_pos hlen]
    rfl
  · rw [if_pos hlen, if_neg hlen]
    rw [Program.run_lift_bind (Value.textsAt_texts 0 requested),
      Program.run_lift_bind (Value.textsAt_texts 0 ids)]
    rfl

/-! ## Entries and their subnets -/

theorem mem_found : r ∈ found rows requested ↔ r ∈ rows ∧ ∃ e ∈ lookedUp requested, r.goesBy e = true := by
  rw [found, List.mem_filter, List.any_eq_true]

theorem standsFor_identifier {e id : String} (he : e ∈ identifiers requested) :
    StandsFor rows e id ↔ id = e := by
  rw [StandsFor, if_pos (List.mem_filter.1 he).2]

theorem standsFor_name {e id : String} (he : e ∈ lookedUp requested) :
    StandsFor rows e id ↔ ∃ r ∈ rows, r.goesBy e = true ∧ r.id = id := by
  rw [StandsFor, if_neg (by simpa using (List.mem_filter.1 he).2)]

theorem mem_requested {e : String} : e ∈ requested ↔ e ∈ identifiers requested ∨ e ∈ lookedUp requested := by
  simp only [identifiers, lookedUp, List.mem_filter, Bool.not_eq_true', ← and_or_left]
  exact ⟨fun h => ⟨h, (Bool.eq_false_or_eq_true _).symm.imp id id |>.symm⟩, fun h => h.1⟩

theorem length_requested (requested : List String) :
    requested.length = (identifiers requested).length + (lookedUp requested).length :=
  List.length_eq_length_filter_add _

theorem mem_result (hperm : ids.Perm (identifiers requested ++ (found rows requested).map Subnet.id))
    {id : String} :
    id ∈ ids ↔ id ∈ identifiers requested ∨ ∃ r ∈ found rows requested, r.id = id := by
  rw [hperm.mem_iff, List.mem_append, List.mem_map]

theorem unambiguous_of_faithful (hrows : (rows.map Subnet.id).Nodup)
    (hperm : ids.Perm (identifiers requested ++ (found rows requested).map Subnet.id))
    (h : Faithful rows requested ids) :
    Unambiguous rows requested := by
  obtain ⟨honce, -, hapart⟩ := List.nodup_append.1 (hperm.nodup_iff.1 h.nodup)
  refine ⟨honce, fun e he => ?_, fun r hr hid => hapart _ hid _ (List.mem_map_of_mem hr) rfl⟩
  obtain ⟨id, ⟨-, hstands⟩, huniq⟩ := h.exact e (mem_requested.2 (.inr he))
  obtain ⟨r, hr, hgo, rfl⟩ := (standsFor_name he).1 hstands
  refine ⟨r, ⟨hr, hgo⟩, fun r' ⟨hr', hgo'⟩ => ?_⟩
  have hid : r'.id = r.id := by
    refine huniq r'.id ⟨(mem_result hperm).2 (.inr ⟨r', mem_found.2 ⟨hr', e, he, hgo'⟩, rfl⟩), ?_⟩
    exact (standsFor_name he).2 ⟨r', hr', hgo', rfl⟩
  exact List.inj_on_of_nodup_map hrows hr' hr hid

theorem Unambiguous.exact (h : Unambiguous rows requested)
    (hperm : ids.Perm (identifiers requested ++ (found rows requested).map Subnet.id)) :
    ∀ e ∈ requested, ∃! id, id ∈ ids ∧ StandsFor rows e id := by
  intro e he
  rcases mem_requested.1 he with he | he
  · exact ⟨e, ⟨(mem_result hperm).2 (.inl he), (standsFor_identifier he).2 rfl⟩,
      fun id hid => (standsFor_identifier he).1 hid.2⟩
  · obtain ⟨r, ⟨hr, hgo⟩, huniq⟩ := h.alone e he
    refine ⟨r.id, ⟨(mem_result hperm).2 (.inr ⟨r, mem_found.2 ⟨hr, e, he, hgo⟩, rfl⟩),
      (standsFor_name he).2 ⟨r, hr, hgo, rfl⟩⟩, ?_⟩
    rintro id ⟨-, hid⟩
    obtain ⟨r', hr', hgo', rfl⟩ := (standsFor_name he).1 hid
    exact congrArg Subnet.id (huniq r' ⟨hr', hgo'⟩)

theorem faithful_of_unambiguous (hrows : (rows.map Subnet.id).Nodup) (hlength : ids.length = requested.length)
    (hperm : ids.Perm (identifiers requested ++ (found rows requested).map Subnet.id))
    (hsorted : ids.Pairwise (· ≤ ·)) (h : Unambiguous rows requested) : Faithful rows requested ids := by
  have hnodup : ids.Nodup := by
    rw [hperm.nodup_iff, List.nodup_append]
    refine ⟨h.once, hrows.sublist (List.filter_sublist.map _), ?_⟩
    rintro e he _ hid rfl
    obtain ⟨r, hr, rfl⟩ := List.mem_map.1 hid
    exact h.apart r hr he
  have hexact := h.exact hperm
  choose! meant hmeant huniq using hexact
  refine ⟨hsorted, hnodup, h.exact hperm, requested.map meant, ?_, ?_⟩
  · exact List.forall₂_map_right_iff.2 (List.forall₂_same.2 fun e he => (hmeant e he).2)
  · -- the result has no repetition and is as long as what the entries mean, so being part of that it is
    -- all of it
    refine (List.subperm_of_subset hnodup fun id hid => ?_).perm_of_length_le
      (by rw [List.length_map, hlength])
    have hstands : ∃ e ∈ requested, StandsFor rows e id := by
      rcases (mem_result hperm).1 hid with he | ⟨r, hr, rfl⟩
      · exact ⟨id, mem_requested.2 (.inl he), (standsFor_identifier he).2 rfl⟩
      · obtain ⟨hr, e, he, hgo⟩ := mem_found.1 hr
        exact ⟨e, mem_requested.2 (.inr he), (standsFor_name he).2 ⟨r, hr, hgo, rfl⟩⟩
    obtain ⟨e, he, hid'⟩ := hstands
    exact List.mem_map.2 ⟨e, he, (huniq e he id ⟨hid, hid'⟩).symm⟩

/-- Resolution leaves all as it is. Its result is faithful and names of no subnet are refused just if there is
no ambiguity wherever as many subnets go by the requested names as there are such names. -/
theorem resolution_kept_iff (hrows : List.Forall₂ Subnet.Describes rows m.resources.subnets)
    (hnodup : (rows.map Subnet.id).Nodup) (hne : requested ≠ []) (clusterName scheme : Value) :
    ∃ result, (resolveSubnets clusterName scheme (textList requested)).run Memory.bare m = (result, m) ∧
      (ResolutionKept rows requested result ↔
        ((found rows requested).length = (lookedUp requested).length → Unambiguous rows requested)) := by
  obtain ⟨ids, hperm, hsorted, hrun⟩ := run_resolveSubnets hrows hne clusterName scheme
  refine ⟨_, hrun, ?_⟩
  have hlength : ids.length = requested.length ↔
      (found rows requested).length = (lookedUp requested).length := by
    rw [hperm.length_eq, List.length_append, List.length_map, length_requested requested]
    omega
  by_cases hlen : ids.length = requested.length
  · rw [if_pos hlen, imp_iff_right (hlength.1 hlen)]
    constructor
    · intro h
      obtain ⟨ids', heq, hfaithful⟩ := h.faithful _ rfl
      obtain rfl := (List.map_injective_iff.2 fun _ _ => Value.text.inj) heq
      exact unambiguous_of_faithful hnodup hperm hfaithful
    · intro h
      refine ⟨fun vs hvs => ⟨ids, (Except.ok.inj hvs).symm,
        faithful_of_unambiguous hnodup hlen hperm hsorted h⟩, ?_⟩
      rintro ⟨e, he, hnone⟩
      obtain ⟨r, ⟨hr, hgo⟩, -⟩ := h.alone e he
      rw [hnone r hr] at hgo
      cases hgo
  · rw [if_neg hlen]
    refine iff_of_true ⟨?_, fun _ => ⟨_, rfl⟩⟩ fun h => absurd (hlength.2 h) hlen
    rintro vs ⟨⟩

end

/-- The description of a subnet with a name. -/
def describedSubnet (id name : String) : Value :=
  .object [("SubnetId", .text id), ("Tags", .list [.object [("Key", .text "Name"), ("Value", .text name)]])]

theorem describes_describedSubnet {id name : String} (h : name ≠ "") :
    Subnet.Describes ⟨id, some name⟩ (describedSubnet id name) := by
  refine ⟨rfl, _, rfl, h, rfl⟩

/-- Two subnets of given names. -/
def twoSubnets (name name' : String) : Memory :=
  { resources := { subnets := [describedSubnet "subnet-1" name, describedSubnet "subnet-2" name'] } }

theorem distinct_names_kept :
    ∃ result, (resolveSubnets (.text "main") (.text "internal")
        (textList ["front", "subnet-2"])).run Memory.bare
        (twoSubnets "front" "back") = (result, twoSubnets "front" "back") ∧
      ResolutionKept [⟨"subnet-1", some "front"⟩, ⟨"subnet-2", some "back"⟩]
        ["front", "subnet-2"] result := by
  have hne : ["front", "subnet-2"] ≠ [] := by decide
  obtain ⟨result, hrun, hiff⟩ := resolution_kept_iff (m := twoSubnets "front" "back")
    (.cons (describes_describedSubnet (by decide)) (.cons (describes_describedSubnet (by decide)) .nil))
      (by decide) hne
    (.text "main") (.text "internal")
  refine ⟨result, hrun, hiff.2 fun _ => ⟨by decide, ?_, by decide⟩⟩
  intro e he
  obtain rfl : e = "front" := List.mem_singleton.1 (show e ∈ ["front"] from he)
  have hall : ∀ r ∈ [⟨"subnet-1", some "front"⟩, (⟨"subnet-2", some "back"⟩ : Subnet)],
      r.goesBy "front" = true → r = ⟨"subnet-1", some "front"⟩ := by decide
  exact ⟨⟨"subnet-1", some "front"⟩, ⟨by simp, by decide⟩, fun r ⟨hr, hgo⟩ => hall r hr hgo⟩

/-- Two subnets of one name make up for a name of no subnet. -/
theorem shared_name_not_kept :
    ¬ ∀ (rows : List Subnet) (requested : List String) (m : Memory) (clusterName scheme : Value)
      (result : Except Error (List Value)),
      List.Forall₂ Subnet.Describes rows m.resources.subnets → (rows.map Subnet.id).Nodup → requested ≠ [] →
      (resolveSubnets clusterName scheme (textList requested)).run Memory.bare m = (result, m) →
      ResolutionKept rows requested result := by
  intro hall
  have hrun : (resolveSubnets (.text "main") (.text "internal") (textList ["x", "y"])).run Memory.bare
      (twoSubnets "x" "x") =
      (.ok [.text "subnet-1", .text "subnet-2"], twoSubnets "x" "x") := rfl
  have hkept := hall [⟨"subnet-1", some "x"⟩, ⟨"subnet-2", some "x"⟩] ["x", "y"] (twoSubnets "x" "x") _ _ _
    (.cons (describes_describedSubnet (by decide)) (.cons (describes_describedSubnet (by decide)) .nil))
      (by decide) (by decide) hrun
  obtain ⟨fault, hfault⟩ := hkept.refused ⟨"y", by decide, by decide⟩
  cases hfault

end Converge

end Balancer
