import Balancer.Proofs.Cloud.Client
import Balancer.Proofs.Converge.Targets
import Mathlib.Data.List.Nodup
import Mathlib.Data.Prod.Lex
import Mathlib.Data.Set.List

/-!
# Which targets are registered and deregistered

`convergeTargets` over clients goes by the identifiers and ports of the targets that it is told of. Their
states, among them that of a target which is about to leave, have no part in it.

* `Place`, `Place.Names`, `Health.Describes` : the identifier and the port of a target, and the values
  that name and describe it;
* `Difference new wanted there` : the targets that are wanted and not there, in order; `exists_difference`;
* `adjusting arn new gone` : the calls that register some targets and deregister others;
* `sends_convergeTargets` : these calls are sent for what is wanted and not listed, and what
  is listed and not wanted.
-/

namespace Balancer

set_option autoImplicit false

namespace Converge

open Clients (Follows Sends)

/-- The identifier and the port of a target. -/
abbrev Place := String × Int

namespace Place

def key (p : Place) : Key × Key := (.text p.1, .number (.integer p.2))

def target (p : Place) : Target := ⟨.text p.1, .int p.2⟩

/-- A value that names a target. -/
def Names (p : Place) (v : Value) : Prop := v.item "Id" = .ok (.text p.1) ∧ v.item "Port" = .ok (.int p.2)

end Place

/-- A target that is listed, and the state of its health. -/
structure Health where
  place : Place
  state : String

/-- What describes a listed target. -/
def Health.Describes (h : Health) (d : Value) : Prop :=
  (∃ v, d.item "Target" = .ok v ∧ h.place.Names v) ∧
    (d.item "TargetHealth" >>= (·.item "State")) = .ok (.text h.state)

/-- The targets among some that are not among others, each once and in order. -/
structure Difference (new wanted there : List Place) : Prop where
  sorted : new.Pairwise fun p q => toLex p < toLex q
  mem_iff : ∀ p, p ∈ new ↔ p ∈ wanted ∧ p ∉ there

def describeCall (arn : Value) : Call := ⟨"elbv2", "describe_target_health", [("TargetGroupArn", arn)]⟩

/-- A call about some targets of a target group. -/
def targetsCall (method : String) (arn : Value) (ps : List Place) : Call :=
  ⟨"elbv2", method, [("TargetGroupArn", arn), ("Targets", targetList (ps.map Place.target))]⟩

/-- The calls that look the listed targets up, then register the new ones, then
deregister those that are gone. -/
def adjusting (arn : Value) (new gone : List Place) : List Call :=
  describeCall arn :: ((if new = [] then [] else [targetsCall "register_targets" arn new]) ++
    if gone = [] then [] else [targetsCall "deregister_targets" arn gone])

section

variable {γ : Type} {g : Gate γ} {s₀ s : γ × Clients} {wanted : List Place}
  {there : List Health} {ds vs : List Value} {arn desired : Value}

/-! ## Differences -/

theorem Place.beq_key (p q : Place) : (p.key == q.key) = decide (p = q) := by
  obtain ⟨id, port⟩ := p
  obtain ⟨id', port'⟩ := q
  have hport : (Key.number (.integer port) == Key.number (.integer port')) = decide (port = port') := by
    rw [Bool.eq_iff_iff, Key.beq_iff_meaning]
    simp [Key.meaning, Number.reduced]
  rw [pair_beq, Place.key, Place.key, Key.text_beq_text, hport, Bool.eq_iff_iff]
  simp

theorem Place.contains_keys (ps : List Place) (p : Place) :
    (ps.map Place.key).contains p.key = decide (p ∈ ps) := by
  rw [List.contains_eq_any_beq, List.any_map, Bool.eq_iff_iff, List.any_eq_true, decide_eq_true_eq]
  simp only [Function.comp, Place.beq_key, decide_eq_true_eq, exists_eq_right']

theorem Place.before_target (x y : String ×ₗ Int) :
    Target.before (Place.target (ofLex x)) (Place.target (ofLex y)) = .ok (decide (x < y)) := by
  obtain ⟨⟨id, port⟩, rfl⟩ := toLex.surjective x
  obtain ⟨⟨id', port'⟩, rfl⟩ := toLex.surjective y
  have hid : (Value.text id).alike (.text id') = decide (id = id') := rfl
  have hport : (Value.int port).alike (.int port') = decide (port = port') := by
    simp [Value.alike, Number.alike, Number.reduced]
  unfold Target.before
  simp only [ofLex_toLex, Place.target, hid, hport, Value.before_int, Prod.Lex.toLex_lt_toLex]
  by_cases h : id = id'
  · subst h
    by_cases h' : port = port'
    · simp [h']
    · simp [h']
  · simp only [h, decide_false, Bool.not_false, if_true, false_and, or_false]
    rfl

/-- The targets that are missing are those that are wanted and not there. -/
theorem exists_difference (wanted there : List Place) :
    ∃ new, missingFrom (wanted.map Place.key) (there.map Place.key) = .ok (new.map Place.target) ∧
      Difference new wanted there := by
  obtain ⟨ps, hps⟩ : ∃ ps : List Place, missingKeys (wanted.map Place.key) (there.map Place.key) =
      ps.map Place.key := by
    have hrange : ∀ k ∈ missingKeys (wanted.map Place.key) (there.map Place.key),
        k ∈ Set.range Place.key := by
      intro k hk
      obtain ⟨p, -, rfl⟩ := List.mem_map.1 (mem_missingKeys hk).1
      exact ⟨p, rfl⟩
    obtain ⟨ps, hps⟩ := (Set.ext_iff.1 (Set.range_list_map Place.key) _).2 hrange
    exact ⟨ps, hps.symm⟩
  have hmem : ∀ p, p ∈ ps ↔ p ∈ wanted ∧ p ∉ there := by
    intro p
    have hcontains := contains_missingKeys (wanted.map Place.key) (there.map Place.key) p.key
    rw [hps, Place.contains_keys, Place.contains_keys, Place.contains_keys, Bool.eq_iff_iff] at hcontains
    simpa using hcontains
  have hnodup : ps.Nodup := by
    have hpairwise := pairwise_missingKeys (wanted.map Place.key) (there.map Place.key)
    rw [hps, List.pairwise_map] at hpairwise
    refine hpairwise.imp fun {p q} hpq heq => ?_
    rw [Place.beq_key, decide_eq_false_iff_not] at hpq
    exact hpq heq.symm
  obtain ⟨row, hrow, hperm, hsorted⟩ := sortBy_map Place.before_target (ps.map toLex)
  refine ⟨row.map ofLex, ?_, ?_, ?_⟩
  · rw [missingFrom_eq, hps, List.map_map, List.map_map]
    rw [List.map_map] at hrow
    exact hrow
  · have hstrict : row.Pairwise (· < ·) :=
      (hsorted.and (hperm.nodup_iff.2 (hnodup.map toLex.injective))).imp fun h => lt_of_le_of_ne h.1 h.2
    rw [List.pairwise_map]
    exact hstrict
  · intro p
    rw [← hmem, ((hperm.map ofLex).mem_iff), List.map_map]
    simp

/-! ## The calls -/

theorem targetKeys_names {ps : List Place} (h : List.Forall₂ Place.Names ps vs) :
    targetKeys vs = .ok (ps.map Place.key) := by
  refine mapM_eq_ok_iff.2 (List.forall₂_map_right_iff.2 (h.flip.imp fun v p hv => ?_))
  have hof : Target.ofValue v = .ok p.target :=
    bind_eq_ok_iff.2 ⟨_, hv.1, bind_eq_ok_iff.2 ⟨_, hv.2, rfl⟩⟩
  rw [hof]
  rfl

theorem mapM_describedTarget (h : List.Forall₂ Health.Describes there ds) :
    ∃ vs, ds.mapM Clients.describedTarget = .ok vs ∧
      List.Forall₂ Place.Names (there.map Health.place) vs := by
  refine ⟨there.map fun h => h.place.target.toValue, ?_, ?_⟩
  · refine mapM_eq_ok_iff.2 (List.forall₂_map_right_iff.2 (h.flip.imp fun d h hd => ?_))
    obtain ⟨⟨v, hv, hid, hport⟩, -⟩ := hd
    refine bind_eq_ok_iff.2 ⟨v, hv, bind_eq_ok_iff.2 ⟨_, hid, ?_⟩⟩
    exact bind_eq_ok_iff.2 ⟨v, hv, bind_eq_ok_iff.2 ⟨_, hport, rfl⟩⟩
  · rw [List.forall₂_map_left_iff, List.forall₂_map_right_iff]
    exact List.forall₂_same.2 fun _ _ => ⟨rfl, rfl⟩

theorem sends_targets (hs : Follows g s₀ s)
    (h : (Clients.part (s.2.nextAnswer "elbv2" "describe_target_health") "TargetHealthDescriptions" >>=
      List.mapM Clients.describedTarget) = .ok vs) :
    Sends g s₀ s ((Program.answer (.targets arn)).run (Clients.cloud g) s) [describeCall arn] vs := by
  have hdef : (Program.answer (.targets arn)).run (Clients.cloud g) s =
      (Clients.call g (.targets arn) "elbv2" "describe_target_health"
        [("TargetGroupArn", arn)] >>= fun answer =>
        liftM (Clients.part answer "TargetHealthDescriptions" >>= List.mapM Clients.describedTarget) :
        Clients.Wire γ (List Value)).run s := rfl
  rw [hdef, Clients.run_bind]
  refine (Clients.sends_call hs).andThen fun t ht => ?_
  rw [Clients.run_lift, h]
  exact Clients.sends_ok ht vs

theorem sends_doIf {method : String} {r : Request} {program : Program Unit}
    (hs : Follows g s₀ s) (ps : List Place) (hrun : program.run (Clients.cloud g) s =
      (Clients.command g r method (targetsCall method arn ps).params).run s) :
    Sends g s₀ s ((Program.doIf (!(ps.map Place.target).isEmpty) program).run (Clients.cloud g) s)
      (if ps = [] then [] else [targetsCall method arn ps]) () := by
  by_cases hps : ps = []
  · subst hps
    exact Clients.sends_ok hs ()
  · rw [if_neg hps, Program.doIf, if_pos (by simpa using hps), hrun]
    exact Clients.sends_command hs

/-- Registered is what is wanted and not listed, and deregistered what is listed and not wanted, in one call
each if there is any, whatever the states of the listed targets are. -/
theorem sends_convergeTargets (g : Gate γ) (s : γ × Clients) (arn : Value)
    (hlisted : Clients.part (s.2.nextAnswer "elbv2" "describe_target_health")
      "TargetHealthDescriptions" = .ok ds)
    (hthere : List.Forall₂ Health.Describes there ds) (hdesired : desired.elements = .ok vs)
    (hwanted : List.Forall₂ Place.Names wanted vs) :
    ∃ new gone, Difference new wanted (there.map Health.place) ∧
      Difference gone (there.map Health.place) wanted ∧
      Sends g s s ((convergeTargets arn desired).run (Clients.cloud g) s) (adjusting arn new gone)
        (!new.isEmpty || !gone.isEmpty) := by
  obtain ⟨described, hdescribed, hnames⟩ := mapM_describedTarget hthere
  obtain ⟨new, hnew, hadded⟩ := exists_difference wanted (there.map Health.place)
  obtain ⟨gone, hgone, hremoved⟩ := exists_difference (there.map Health.place) wanted
  refine ⟨new, gone, hadded, hremoved, ?_⟩
  rw [convergeTargets_eq]
  have hread : (Clients.part (s.2.nextAnswer "elbv2" "describe_target_health") "TargetHealthDescriptions" >>=
      List.mapM Clients.describedTarget) = .ok described := bind_eq_ok_iff.2 ⟨ds, hlisted, hdescribed⟩
  refine Clients.Sends.bind (sends_targets (Follows.refl g s) hread) fun t ht => ?_
  rw [Program.run_lift_bind (targetKeys_names hnames), Program.run_lift_bind hdesired,
    Program.run_lift_bind (targetKeys_names hwanted), Program.run_lift_bind hnew, Program.run_lift_bind hgone]
  refine Clients.Sends.bind (sends_doIf ht new rfl) fun t ht => ?_
  rw [← List.append_nil (if gone = [] then [] else _)]
  refine Clients.Sends.bind (sends_doIf ht gone rfl) fun t ht => ?_
  rw [List.isEmpty_map, List.isEmpty_map]
  exact Clients.sends_ok ht _

end

/-- An answer that lists one target with some state. -/
def listing (state : String) : Value :=
  .object [("TargetHealthDescriptions", .list [.object [
    ("Target", .object [("Id", .text "10.0.0.1"), ("Port", .int 80)]),
    ("TargetHealth", .object [("State", .text state)])]])]

/-- Clients that list one target with some state. -/
def listingClients (state : String) : Clients where
  answers := .ofList [("elbv2", .ofList [("describe_target_health", [listing state])])]

theorem describes_listing (state : String) :
    ∃ ds, Clients.part ((listingClients state).nextAnswer "elbv2" "describe_target_health")
      "TargetHealthDescriptions" = .ok ds ∧
      List.Forall₂ Health.Describes [⟨("10.0.0.1", 80), state⟩] ds :=
  ⟨_, rfl, .cons ⟨⟨_, rfl, rfl, rfl⟩, rfl⟩ .nil⟩

theorem healthy_target_replaced :
    ∃ new gone, Difference new [("10.0.0.2", 80)] [("10.0.0.1", 80)] ∧
      Difference gone [("10.0.0.1", 80)] [("10.0.0.2", 80)] ∧
      Sends Gate.free ((), listingClients "healthy") ((), listingClients "healthy")
        ((convergeTargets (.text "group") (targetList [Place.target ("10.0.0.2", 80)])).run
          (Clients.cloud Gate.free)
          ((), listingClients "healthy"))
        (adjusting (.text "group") new gone) (!new.isEmpty || !gone.isEmpty) := by
  obtain ⟨ds, hlisted, hthere⟩ := describes_listing "healthy"
  exact sends_convergeTargets Gate.free ((), listingClients "healthy") (.text "group") hlisted hthere rfl
    (.cons ⟨rfl, rfl⟩ .nil)

/-- A target that is wanted and listed as draining is not registered again. -/
theorem draining_target_left :
    ¬ ∀ (c : Clients) (arn desired : Value) (ds vs : List Value) (there : List Health) (wanted : List Place),
      Clients.part (c.nextAnswer "elbv2" "describe_target_health") "TargetHealthDescriptions" = .ok ds →
      List.Forall₂ Health.Describes there ds → (there.map Health.place).Nodup →
      desired.elements = .ok vs → List.Forall₂ Place.Names wanted vs →
      ∃ new gone, Difference new wanted ((there.filter fun h => h.state != "draining").map Health.place) ∧
        Difference gone ((there.filter fun h => h.state != "draining").map Health.place) wanted ∧
        Sends Gate.free ((), c) ((), c) ((convergeTargets arn desired).run (Clients.cloud Gate.free) ((), c))
          (adjusting arn new gone)
          (!new.isEmpty || !gone.isEmpty) := by
  intro hall
  obtain ⟨ds, hlisted, hthere⟩ := describes_listing "draining"
  obtain ⟨new, gone, hnew, -, hsends⟩ := hall (listingClients "draining") (.text "group")
    (targetList [Place.target ("10.0.0.1", 80)]) ds _ _ [("10.0.0.1", 80)] hlisted hthere (by decide) rfl
      (.cons ⟨rfl, rfl⟩ .nil)
  have hmem : ("10.0.0.1", 80) ∈ new := (hnew.mem_iff _).2 ⟨by decide, by decide⟩
  have hsent : ((convergeTargets (.text "group") (targetList [Place.target ("10.0.0.1", 80)])).run
      (Clients.cloud Gate.free)
      ((), listingClients "draining")).2.2.sent = [describeCall (.text "group")] := rfl
  rcases hsends.outcome with ⟨-, hcalls⟩ | ⟨⟨e, he⟩, -⟩
  · rw [hsent, adjusting, if_neg (List.ne_nil_of_mem hmem)] at hcalls
    cases hcalls
  · cases he

end Converge

end Balancer
