import Balancer.Proofs.Cluster.Store
import Balancer.Webhook

/-!
# Admission agrees with the store

* `Shaped service` : an object whose metadata and annotations are objects, or nothing that holds;
* `judge_eq_ok_iff` : what a request is allowed for;
* `settings_upsert` : what is read of the annotations of a Service that was just stored;
* `review_agrees` : a request about a Service of the class is allowed if and only if its annotations
  can be read from the store.
-/

namespace Balancer

set_option autoImplicit false

open Cluster

/-- An object that may have metadata, which may hold annotations. -/
structure Shaped (service : Value) : Prop where
  isPart : service.IsPart
  metadata : (Fields.get service.fields "metadata").IsPart
  annotations : (Fields.get (Fields.get service.fields "metadata").fields "annotations").IsPart

section

variable {v service ns name : Value} {c : Config} {s : Store} {fs request : Fields} {operation : String}

/-- Of an object with metadata and annotations it can be told whether it is of a class. -/
theorem Shaped.isOfClass (h : Shaped (.object fs)) (serviceClass : Value) :
    ∃ b, isOfClass serviceClass (.object fs) = .ok b := by
  have hannotated : Cluster.annotations (.object fs) =
      .ok (Fields.get (Fields.get fs "metadata").fields "annotations") :=
    annotations_eq h.metadata
  have hclass : ∃ v, (Value.orElse (Fields.get (Fields.get fs "metadata").fields "annotations")
      (.object [])).get classKey = .ok v := by
    rw [show Value.orElse (Fields.get (Fields.get fs "metadata").fields "annotations") (.object []) =
      _ from h.annotations.orElse_eq]
    exact ⟨_, Value.get_object _ _⟩
  obtain ⟨v, hv⟩ := hclass
  exact ⟨_, bind_eq_ok_iff.2 ⟨_, hannotated, bind_eq_ok_iff.2 ⟨v, hv, rfl⟩⟩⟩

/-! ## Requests -/

namespace Webhook

/-- An answer that repeats the name of its request and tells whether that is allowed. -/
def Answers (answer uid : Value) (allowed : Bool) : Prop :=
  ∃ response, answer.get "response" = .ok response ∧ response.get "uid" = .ok uid ∧
    response.get "allowed" = .ok (.bool allowed)

theorem answers_toValue (r : Review) : Answers r.toValue r.uid r.denial.isNone := ⟨_, rfl, rfl, rfl⟩

theorem isExempt_eq (hoperation : Fields.getOr request "operation" (.text "") = .text operation) :
    isExempt c request =
      if Text.upper operation = "DELETE" then .ok true
      else if (Fields.get request "object").holds = false then .ok true
      else isOfClass c.serviceClass (Fields.get request "object") >>= fun b => .ok !b := by
  unfold isExempt
  rw [hoperation]
  show (if (Text.upper operation == "DELETE") = true then _ else _) = _
  by_cases hdelete : Text.upper operation = "DELETE"
  · rw [if_pos hdelete, if_pos (beq_iff_eq.2 hdelete)]
    rfl
  · rw [if_neg hdelete, if_neg (mt beq_iff_eq.1 hdelete)]
    cases hholds : (Fields.get request "object").holds with
    | false => rfl
    | true => rfl

/-- A request about a Service is allowed if it is a deletion, there is no Service, it is not of the class, or
its annotations can be read. -/
theorem judge_eq_ok_iff (hoperation : Fields.getOr request "operation" (.text "") = .text operation)
    (hservice : Shaped (Fields.get request "object")) : judge c request = .ok () ↔
      Text.upper operation = "DELETE" ∨ (Fields.get request "object").holds = false ∨
        isOfClass c.serviceClass (Fields.get request "object") = .ok false ∨
        ∃ settings, (annotations (Fields.get request "object") >>= ServiceSettings.parse c) =
          .ok settings := by
  unfold judge
  rw [isExempt_eq hoperation]
  by_cases hdelete : Text.upper operation = "DELETE"
  · rw [if_pos hdelete]
    exact iff_of_true rfl (.inl hdelete)
  by_cases hholds : (Fields.get request "object").holds = false
  · rw [if_neg hdelete, if_pos hholds]
    exact iff_of_true rfl (.inr (.inl hholds))
  rw [if_neg hdelete, if_neg hholds]
  obtain ⟨b, hb⟩ : ∃ b, isOfClass c.serviceClass (Fields.get request "object") = .ok b := by
    obtain hnull | ⟨fs, hfs⟩ := hservice.isPart
    · rw [hnull] at hholds
      exact (hholds rfl).elim
    · rw [hfs] at hservice ⊢
      exact hservice.isOfClass c.serviceClass
  rw [hb]
  cases b with
  | false => exact iff_of_true rfl (.inr (.inr (.inl rfl)))
  | true =>
    simp only [hdelete, hholds, false_or, Except.ok.injEq, Bool.true_eq_false]
    change (annotations (Fields.get request "object") >>= fun a =>
      discard (ServiceSettings.parse c a)) = .ok () ↔ _
    constructor
    · intro h
      obtain ⟨annotated, hannotated, h⟩ := bind_eq_ok_iff.1 h
      obtain ⟨settings, hsettings, -⟩ := bind_eq_ok_iff.1 h
      exact ⟨settings, bind_eq_ok_iff.2 ⟨annotated, hannotated, hsettings⟩⟩
    · rintro ⟨settings, h⟩
      obtain ⟨annotated, hannotated, hsettings⟩ := bind_eq_ok_iff.1 h
      exact bind_eq_ok_iff.2 ⟨annotated, hannotated, bind_eq_ok_iff.2 ⟨settings, hsettings, rfl⟩⟩

theorem denial_eq_none_iff : (reviewRequest c request).denial = none ↔ judge c request = .ok () := by
  unfold reviewRequest
  cases judge c request <;> simp

/-- The request in a body is what is reviewed. -/
theorem review_object {body : Fields} (hrequest : Fields.get body "request" = .object request)
    (hne : request ≠ []) :
    review c (.object body) = reviewRequest c request := by
  have hbody : (Value.object body).holds = true := by
    cases body with
    | nil => cases hrequest
    | cons f fs => rfl
  have hholds : (Value.object request).holds = true := by
    cases request with
    | nil => exact absurd rfl hne
    | cons f fs => rfl
  unfold review
  rw [hbody, Value.get_object, hrequest]
  show (if (!(Value.object request).holds) = true then _ else _) = _
  rw [hholds]
  rfl

end Webhook

/-! ## Stored Services -/

/-- A Service with a namespace can be stored, and then its annotations are read as they stand in it. -/
theorem settings_upsert (hnames : names service = .ok (ns, name)) (hns : ns.holds = true)
    (s : Store) (c : Config) :
    ∃ old stored, s.upsert .service service = .ok (old, stored) ∧
      stored.settings c (.text (ns.shown ++ "/" ++ name.shown)) = annotations service >>=
        ServiceSettings.parse c := by
  refine ⟨_, _, Store.upsert_of_objectKey (by decide) (objectKey_of_names hnames hns),
    Store.settings_of_get? ?_⟩
  exact Table.get?_insert_self _ _ _

namespace Webhook

/-- The answer to a review repeats the name of the request, and allows it if it is a deletion, there is
no Service, it is not of the class, or its annotations can be read. If the request is about a Service
of the class and no deletion, that is so if and only if the annotations can be read from a store once
the Service is in it. -/
theorem review_agrees (c : Config) (s : Store) {body : Fields}
    (hrequest : Fields.get body "request" = .object request) (hne : request ≠ [])
    (hoperation : Fields.getOr request "operation" (.text "") = .text operation)
    (hservice : Shaped (Fields.get request "object")) :
    ∃ allowed, Answers (review c (.object body)).toValue (Fields.getOr request "uid" (.text "")) allowed ∧
      (allowed = true ↔ Text.upper operation = "DELETE" ∨ (Fields.get request "object").holds = false ∨
        isOfClass c.serviceClass (Fields.get request "object") = .ok false ∨
        ∃ settings, (annotations (Fields.get request "object") >>= ServiceSettings.parse c) = .ok settings) ∧
      ∀ ns name, Text.upper operation ≠ "DELETE" →
        isOfClass c.serviceClass (Fields.get request "object") = .ok true →
        names (Fields.get request "object") = .ok (ns, name) → ns.holds = true →
        ∃ old stored, s.upsert .service (Fields.get request "object") = .ok (old, stored) ∧
          (allowed = true ↔ ∃ settings, stored.settings c (.text (ns.shown ++ "/" ++ name.shown)) =
            .ok settings) := by
  have hanswers := answers_toValue (review c (.object body))
  rw [review_object hrequest hne] at hanswers ⊢
  have hallowed : (reviewRequest c request).denial.isNone = true ↔ _ :=
    Option.isNone_iff_eq_none.trans (denial_eq_none_iff.trans (judge_eq_ok_iff hoperation hservice))
  refine ⟨_, hanswers, hallowed, fun ns name hdelete hclass hnames hns => ?_⟩
  obtain ⟨old, stored, hstored, hsettings⟩ := settings_upsert hnames hns s c
  have hholds : (Fields.get request "object").holds ≠ false := by
    obtain ⟨fs, ms, hfs, hmetadata, -⟩ := exists_of_names hnames
    rw [hfs]
    cases fs with
    | nil => cases hmetadata
    | cons f fs => exact Bool.true_eq_false.mp
  refine ⟨old, stored, hstored, hallowed.trans ?_⟩
  rw [hsettings]
  constructor
  · rintro (h | h | h | h)
    · exact absurd h hdelete
    · exact absurd h hholds
    · rw [hclass] at h
      cases h
    · exact h
  · exact fun h => .inr (.inr (.inr h))

/-- A Service whose target type is none that there is. -/
def lambdaService : Value :=
  .object [("metadata", .object [("namespace", .text "default"), ("name", .text "web"),
    ("annotations", .object [("kubernetes.io/service.class", .text "nlb"),
      ("nlb.service.kubernetes.io/target-type", .text "lambda")])])]

/-- A request to change a Service into that one. -/
def lambdaRequest :
    Fields := [("uid", .text "7f0c"), ("operation", .text "update"), ("object", lambdaService)]

/-- The Service is not allowed, and once it is stored its annotations cannot be read. -/
theorem lambdaRequest_denied :
    Answers (review {} (.object [("request", .object lambdaRequest)])).toValue (.text "7f0c") false ∧
    ∃ old stored, Store.upsert {} .service lambdaService = .ok (old, stored) ∧
      ¬ ∃ settings, stored.settings {} (.text "default/web") = .ok settings := by
  have hrequest : Fields.get [("request", .object lambdaRequest)] "request" = .object lambdaRequest := rfl
  have hshaped : Shaped (Fields.get lambdaRequest "object") := ⟨.inr ⟨_, rfl⟩, .inr ⟨_, rfl⟩, .inr ⟨_, rfl⟩⟩
  obtain ⟨allowed, hanswers, hallowed, hagrees⟩ :=
    review_agrees {} {} hrequest (List.cons_ne_nil _ _) rfl hshaped
  obtain ⟨old, stored, hstored, hiff⟩ := hagrees (.text "default") (.text "web") (by decide) rfl rfl rfl
  have hdenied : allowed = false := by
    obtain ⟨response, hresponse, -, hfield⟩ := hanswers
    cases hresponse
    exact (Value.bool.inj (Except.ok.inj hfield)).symm
  subst hdenied
  exact ⟨hanswers, old, stored, hstored, fun h => Bool.false_ne_true (hiff.2 h)⟩

end Webhook

end

end Balancer
