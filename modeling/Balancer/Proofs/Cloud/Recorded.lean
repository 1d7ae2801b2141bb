import Balancer.Proofs.Cloud.Requests

/-!
# What requests record

* `ends_request`, `Ends.andThen` : a run of requests that are not refused records each of them
  as it was asked, in order;
* `recordIf c r` : a record of what is done under a condition; `ends_doIf`.
-/

namespace Balancer

set_option autoImplicit false

namespace Resources

section

variable {s : Resources} {r : Request} {record : Record}

theorem recorded_of_record? (hr : s.refusal r = .ok ()) (h : r.record? = .ok (some record)) :
    s.recorded r = [record] := by
  unfold recorded Memory.perform
  simp only [hr, h, bind, Except.bind, Option.toList_some, List.nil_append]

end

end Resources

open Classical in
/-- The record of what is done under a condition. -/
noncomputable def recordIf (c : Prop) (r : Record) : List Record := if c then [r] else []

theorem recordIf_of {c : Prop} (h : c) (r : Record) : recordIf c r = [r] := if_pos h

theorem recordIf_of_not {c : Prop} (h : ¬ c) (r : Record) : recordIf c r = [] := if_neg h

namespace Program

variable {α β : Type} {p : Program α} {f : α → Program β} {s t u : Resources} {a : α} {b : β}
  {rs rs' : List Record}

theorem Ends.andThen (hp : p.Ends s a rs t) (hf : (f a).Ends t b rs' u) : (p >>= f).Ends s b (rs ++ rs') u :=
  ends_bind.2 ⟨a, rs, t, rs', hp, hf, rfl⟩

theorem ends_request {r : Request} {answer : r.Answer} {record : Record} (h : s.perform r = (.ok answer, t))
    (hr : s.refusal r = .ok ()) (hrecord : r.record? = .ok (some record)) :
    (Program.answer r).Ends s answer [record] t :=
  ends_answer.2 ⟨h, (Resources.recorded_of_record? hr hrecord).symm⟩

theorem ends_info_bind {reason text : String} {f : Unit → Program β} :
    (info reason text >>= f).Ends s b rs t ↔ (f ()).Ends s b rs t := by
  constructor
  · intro h
    obtain ⟨_, _, _, _, ha, hb, rfl⟩ := ends_bind.1 h
    obtain ⟨rfl, rfl⟩ := ends_info.1 ha
    exact hb
  · exact fun h => ends_bind.2 ⟨(), [], s, rs, ends_info.2 ⟨rfl, rfl⟩, h, rfl⟩

/-- What is done under a condition is recorded under it. -/
theorem ends_doIf {c : Bool} {p : Program Unit} {record : Record} (hp : c = true → p.Ends s () [record] t)
    (ht : c = false → t = s) : (doIf c p).Ends s () (recordIf (c = true) record) t := by
  cases c with
  | true =>
    rw [recordIf_of rfl]
    exact hp rfl
  | false =>
    rw [recordIf_of_not (by decide), ht rfl]
    exact ends_pure.2 ⟨rfl, rfl, rfl⟩

end Program

end Balancer
