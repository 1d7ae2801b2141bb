import Balancer.Cloud.Client
import Balancer.Proofs.Checked
import Balancer.Proofs.Table

/-!
# Runs over clients

What a program over the cloud of some clients sends, behind any gate.

* `run_bind`, `run_lift`, `run_call` : how runs of calls are put together; `eq_of_received` : an answer that
  is no refusal is received as it is;
* `Follows g s₀ s` : what the gate and the clients can come to from `s₀` on;
* `Unhindered g s` : the gate admits all requests from `s` on, and no answer that the
  clients have is a refusal;
* `Sends g s₀ s z calls a` : from `s` on the calls are sent and `a` is the result, or a part of
  them in front and an error, which happens only if something hinders; `Sends.andThen` and
  `Sends.bind` put two parts together;
* `sends_call`, `sends_command` : one call.
-/

namespace Balancer.Clients

set_option autoImplicit false

variable {γ α β : Type} {g : Gate γ} {s₀ s : γ × Clients} {r : Request}
  {client method : String} {params : Fields}

/-! ## Runs of calls -/

/-- The answer that the next call of a method gets. -/
def nextAnswer (c : Clients) (client method : String) : Value := (c.pending client method).headD (.object [])

/-- After an error nothing more is called, else the rest goes on with the clients that the first part left. -/
theorem run_bind (p : Wire γ α) (f : α → Wire γ β) (s : γ × Clients) :
    (p >>= f).run s =
      match p.run s with
      | (.ok a, t) => (f a).run t
      | (.error e, t) => (.error e, t) := by
  show ExceptT.bindCont f (p.run s).1 (p.run s).2 = _
  generalize p.run s = z
  obtain ⟨_ | _, t⟩ := z <;> rfl

theorem run_lift (v : Except Error α) (s : γ × Clients) : (liftM v : Wire γ α).run s = (v, s) := by
  cases v <;> rfl

theorem run_call :
    (call g r client method params).run s =
      match (g.allow r s.1).1 with
      | .error e => (.error e, ((g.allow r s.1).2, s.2))
      | .ok _ =>
        (received method (s.2.nextAnswer client method),
          ((g.allow r s.1).2, (s.2.send ⟨client, method, params⟩).2)) := by
  unfold call
  rw [run_bind]
  show (liftM (g.allow r s.1).1 >>= fun _ => _ : Wire γ Value).run ((g.allow r s.1).2, s.2) = _
  rw [run_bind, run_lift]
  cases (g.allow r s.1).1 with
  | error e => rfl
  | ok _ =>
    show (liftM (received method (s.2.nextAnswer client method)) : Wire γ Value).run
      ((g.allow r s.1).2, (s.2.send ⟨client, method, params⟩).2) = _
    rw [run_lift]

/-- An answer that is no refusal is received as it is. -/
theorem eq_of_received {answer v : Value} (h : received method answer = .ok v) : v = answer := by
  unfold received at h
  split at h
  · split at h
    · obtain ⟨_, -, h⟩ := bind_eq_ok_iff.1 h
      cases h
    · cases h
      rfl
  · cases h
    rfl

/-! ## What is reached -/

/-- The states of a gate after some requests and notices. -/
inductive Reaches (g : Gate γ) (x : γ) : γ → Prop
  | refl : Reaches g x x
  | allow {y : γ} (r : Request) : Reaches g x y → Reaches g x (g.allow r y).2
  | hear {y : γ} (n : Notice) : Reaches g x y → Reaches g x (g.hear n y)

/-- What comes of a gate and of clients: the clients have no answers left that they had not at first. -/
structure Follows (g : Gate γ) (s₀ s : γ × Clients) : Prop where
  gate : Reaches g s₀.1 s.1
  left : ∀ client method, s.2.pending client method <:+ s₀.2.pending client method

theorem Follows.refl (g : Gate γ) (s : γ × Clients) : Follows g s s := ⟨.refl, fun _ _ => List.suffix_refl _⟩

theorem pending_send (c : Clients) (call : Call) (client method : String) :
    (c.send call).2.pending client method =
      if call.client = client ∧ call.method = method then
        (c.pending client method).tail else c.pending client method := by
  have hdef : (c.send call).2.pending client method =
      ((((c.answers.insert call.client (((c.answers.get? call.client).getD ∅).insert call.method
        (c.pending call.client call.method).tail)).get? client).getD ∅).get? method).getD [] := rfl
  rw [hdef, Table.get?_insert]
  by_cases hclient : call.client = client
  · subst hclient
    rw [if_pos (beq_self_eq_true _), Option.getD_some, Table.get?_insert]
    by_cases hmethod : call.method = method
    · simp [hmethod]
    · simp [hmethod, pending]
  · simp [hclient, pending]

theorem Follows.allow (h : Follows g s₀ s) (r : Request) : Follows g s₀ ((g.allow r s.1).2, s.2) :=
  ⟨h.gate.allow r, h.left⟩

theorem Follows.send (h : Follows g s₀ s) (call : Call) : Follows g s₀ (s.1, (s.2.send call).2) := by
  refine ⟨h.gate, fun client method => ?_⟩
  rw [pending_send]
  split
  · exact (List.tail_suffix _).trans (h.left client method)
  · exact h.left client method

/-- The gate admits every request from now on, and no answer that the clients have is a refusal. -/
structure Unhindered (g : Gate γ) (s : γ × Clients) : Prop where
  admits : ∀ r x, Reaches g s.1 x → ∃ u, (g.allow r x).1 = .ok u
  accepts : ∀ client method, ∀ answer ∈ s.2.pending client method, ∃ v, received method answer = .ok v

theorem Unhindered.received (h : Unhindered g s₀) (hs : Follows g s₀ s) (client method : String) :
    Clients.received method (s.2.nextAnswer client method) = .ok (s.2.nextAnswer client method) := by
  obtain ⟨v, hv⟩ : ∃ v, Clients.received method (s.2.nextAnswer client method) = .ok v := by
    unfold nextAnswer
    cases hp : s.2.pending client method with
    | nil => exact ⟨_, rfl⟩
    | cons answer rest =>
      apply h.accepts client method
      apply (hs.left client method).subset
      rw [hp]
      exact List.mem_cons_self
  rw [hv, eq_of_received hv]

/-! ## Calls that are sent -/

/-- From `s` on the calls are sent and `a` is the result, or some first ones of them and the result is an
error. The latter happens only where something hinders from `s₀` on. -/
structure Sends (g : Gate γ) (s₀ s : γ × Clients) (z : Except Error α × γ × Clients)
    (calls : List Call) (a : α) : Prop where
  follows : Follows g s₀ z.2
  outcome : z.1 = .ok a ∧ z.2.2.sent = s.2.sent ++ calls ∨
    (∃ e, z.1 = .error e) ∧ (∃ made, made <+: calls ∧ z.2.2.sent = s.2.sent ++ made) ∧ ¬ Unhindered g s₀

theorem sends_ok (hs : Follows g s₀ s) (a : α) : Sends g s₀ s (.ok a, s) [] a :=
  ⟨hs, .inl ⟨rfl, (List.append_nil _).symm⟩⟩

theorem Sends.andThen {z : Except Error α × γ × Clients} {k : α → γ × Clients → Except Error β × γ × Clients}
    {calls calls' : List Call} {a : α} {b : β} (h : Sends g s₀ s z calls a)
    (hk : ∀ t, Follows g s₀ t → Sends g s₀ t (k a t) calls' b) :
    Sends g s₀ s (match z with | (.ok a, t) => k a t | (.error e, t) => (.error e, t))
      (calls ++ calls') b := by
  obtain ⟨result, t⟩ := z
  rcases h.outcome with ⟨rfl, hsent⟩ | ⟨⟨e, rfl⟩, ⟨made, hmade, hsent⟩, hhindered⟩
  · have hk := hk t h.follows
    refine ⟨hk.follows, hk.outcome.imp (fun ⟨hb, hsent'⟩ => ⟨hb, ?_⟩)
      fun ⟨he, ⟨made, hmade, hsent'⟩, hhindered⟩ => ⟨he, ?_, hhindered⟩⟩
    · rw [hsent', hsent, List.append_assoc]
    · exact ⟨calls ++ made, (List.prefix_append_right_inj calls).2 hmade, by
        rw [hsent', hsent, List.append_assoc]⟩
  · exact ⟨h.follows,
      .inr ⟨⟨e, rfl⟩, ⟨made, hmade.trans (List.prefix_append calls calls'), hsent⟩, hhindered⟩⟩

theorem Sends.bind {p : Program α} {f : α → Program β} {calls calls' : List Call} {a : α} {b : β}
    (h : Sends g s₀ s (p.run (cloud g) s) calls a)
    (hf : ∀ t, Follows g s₀ t → Sends g s₀ t ((f a).run (cloud g) t) calls' b) :
    Sends g s₀ s ((p >>= f).run (cloud g) s) (calls ++ calls') b := by
  have hthen := h.andThen (k := fun a t => (f a).run (cloud g) t) hf
  rw [Program.run_bind]
  generalize p.run (cloud g) s = z at hthen ⊢
  obtain ⟨_ | _, t⟩ := z <;> exact hthen

theorem sends_call (hs : Follows g s₀ s) :
    Sends g s₀ s ((call g r client method params).run s) [⟨client, method, params⟩]
      (s.2.nextAnswer client method) := by
  rw [run_call]
  cases hadmitted : (g.allow r s.1).1 with
  | error e =>
    refine ⟨hs.allow r, .inr ⟨⟨e, rfl⟩, ⟨[], List.nil_prefix, (List.append_nil _).symm⟩, fun h => ?_⟩⟩
    obtain ⟨u, hu⟩ := h.admits r s.1 hs.gate
    rw [hadmitted] at hu
    cases hu
  | ok u =>
    refine ⟨(hs.allow r).send _, ?_⟩
    cases hreceived : received method (s.2.nextAnswer client method) with
    | error e =>
      refine .inr ⟨⟨e, rfl⟩, ⟨_, List.prefix_refl _, rfl⟩, fun h => ?_⟩
      rw [h.received hs] at hreceived
      cases hreceived
    | ok v =>
      refine .inl ⟨?_, rfl⟩
      rw [← eq_of_received hreceived]

theorem sends_command (hs : Follows g s₀ s) :
    Sends g s₀ s ((command g r method params).run s) [⟨"elbv2", method, params⟩] () := by
  have hdef : command g r method params = call g r "elbv2" method params >>= fun _ => pure () := rfl
  rw [hdef, run_bind]
  exact (sends_call hs).andThen fun t ht => sends_ok ht ()

end Balancer.Clients
