import Balancer.Proofs.Converge.Accepted
import Balancer.Proofs.History

/-!
# Requests are accepted

`sync_not_refused` : from an empty cloud, and after any syncs of any Services, each cut off anywhere or not,
no sync ends with an error of the cloud. A target group is deleted when no listener forwards to it any more, a
listener is created on a port that is free, and listeners forward to target groups of their own protocol. That
takes names of target groups that are each for one backend of one Service, tags of the owners that annotations
leave alone, and declared actions that forward to no target group of the cloud.
-/

namespace Balancer

set_option autoImplicit false

/-- A gate that cuts runs off with errors of its own, and not with those of the cloud. -/
def Gate.Cancels {γ : Type} (g : Gate γ) : Prop := ∀ q c e c', g.allow q c = (.error e, c') → ¬ e.IsRefusal

theorem Context.unrefused_check (c : Context) : Unrefused c.check.1 := errs_check c id id

theorem Context.cancels_gate : gate.Cancels := by
  intro q c e c' h
  exact c.unrefused_check e (congrArg Prod.fst h)

theorem Context.cancels_stopping : stopping.Cancels := by
  rintro q ⟨k, c⟩ e c' h
  cases k with
  | zero => exact unrefused_check _ e (congrArg Prod.fst h)
  | succ k => exact c.unrefused_check e (congrArg Prod.fst h)

namespace Converge

open Resources

section

variable {γ : Type} {r : Regime} {usual : Table String Value} {made : Value → Key → Prop}
  {i : Inputs} {key : Value} {s t : Resources} {result : Except Error (Option LoadBalancer)}

/-- The Service of a key, if it is to be reconciled, keeps to the regime. -/
def Regime.Keeps (r : Regime) (i : Inputs) (key : Value) : Prop :=
  ∀ service, wantedAt i key = .ok (some service) → r.Governs i service

/-- After any syncs that keep to the regime the cloud is lawful. -/
theorem History.lawful (h : History ⟨.text r.stem, .text r.cluster, usual⟩
      (fun i key _ _ => r.Keeps i key) made s) : r.Lawful s := by
  induction h with
  | start subnets subnetTags =>
    exact ⟨wellFormed_start subnets subnetTags, fun _ _ hk => (nomatch hk), fun _ _ hk => (nomatch hk),
      fun _ _ hl => (nomatch hl)⟩
  | sync h hid hkeeps hrun ih =>
    exact (safe_sync (by rw [hid]) (by rw [hid]) hkeeps ih).always _ hrun.visits

/-- No sync ends with an error of the cloud, wherever it is cut off: after syncs from an empty cloud that keep
to a regime, if no target group stands under an ARN that declared actions forward to. -/
theorem sync_not_refused
    (h : History ⟨.text r.stem, .text r.cluster, usual⟩ (fun i key _ _ => r.Keeps i key) made s)
    (hid : i.identity = ⟨.text r.stem, .text r.cluster, usual⟩) (hkeeps : r.Keeps i key) {g : Gate γ}
    (hg : g.Cancels) {c c' : γ} {before after : List Record}
    (hrun : (sync i key).run (Memory.cloud g) (c, ⟨s, before⟩) = (result, (c', ⟨t, after⟩)))
    (hclear : r.Clear t) : ∀ operation code text, result ≠ .error (.cloud operation code text) := by
  rintro operation code text rfl
  have hsafe := safe_sync (by rw [hid]) (by rw [hid]) hkeeps h.lawful
  rcases (strict_sync i key).run_error (innocent_sync i key) hsafe.each
    hrun with ⟨q, b, b', hgate⟩ | hown | ⟨q, u, hallows, hperform⟩
  · exact hg q b _ b' hgate trivial
  · exact hown trivial
  · -- a request that is refused leaves the cloud as it was, where no declared action forwards to a target
    -- group
    have hfailed := congrArg Prod.fst hperform
    have hsame : u = t := (perform_of_isRefusal hfailed trivial).symm.trans (congrArg Prod.snd hperform)
    exact hallows (hsame ▸ hclear) _ hfailed trivial

/-- All names are for port 80 of `default/web`, and no action is declared. -/
def webRegime : Regime :=
  ⟨"nlb", "main", fun _ => ⟨"default", "web", ⟨.text "web", .text "80", .text "TCP"⟩⟩, fun _ => False⟩

theorem keeps_schemeService (scheme : String) (h : scheme = "internal" ∨ scheme = "internet-facing") :
    webRegime.Keeps (storedInputs (offering scheme)) (.text "default/web") := by
  intro service hwanted
  have hapart := apart_schemeService scheme service hwanted
  have hservice : wantedAt (storedInputs (offering scheme)) (.text "default/web") =
      .ok (some (schemeService scheme)) := rfl
  rw [hservice] at hwanted
  cases hwanted
  have hasked : ∃ settings, settingsOf (storedInputs (offering scheme))
      (schemeService scheme) = .ok settings ∧
      settings.actions = ∅ ∧ Routing.listenerSpecs (schemeService scheme) settings =
        .ok [⟨80, .text "TCP", ⟨.text "web", .text "80", .text "TCP"⟩⟩] := by
    rcases h with rfl | rfl
    · exact ⟨_, rfl, rfl, rfl⟩
    · exact ⟨_, rfl, rfl, rfl⟩
  obtain ⟨settings, hsettings, hactions, hspecs⟩ := hasked
  refine ⟨fun settings' specs hsettings' hspecs' spec hspec _ n _ => ?_,
    fun settings' ns name hsettings' hnames => ?_, fun settings' name action hsettings' hget => ?_⟩
  · rw [hsettings] at hsettings'
    cases hsettings'
    rw [hspecs] at hspecs'
    cases hspecs'
    rw [List.mem_singleton.1 hspec]
    exact ⟨rfl, rfl⟩
  · rw [hapart.names] at hnames
    cases hnames
    exact hapart.tags settings' hsettings'
  · rw [hsettings] at hsettings'
    cases hsettings'
    rw [hactions] at hget
    cases hget

/-- A sync that recreates a load balancer and is stopped on the way does not end with
an error of the cloud. -/
theorem recreate_not_refused :
    (stoppedAt (offering "internet-facing") 2 (stoppedAt (offering "internal") 100 {}).2).1.isOk = false ∧
      ∀ operation code text,
        (stoppedAt (offering "internet-facing") 2 (stoppedAt (offering "internal") 100 {}).2).1 ≠
        .error (.cloud operation code text) := by
  have hhistory : History ⟨.text webRegime.stem, .text webRegime.cluster, ∅⟩
      (fun i key _ _ => webRegime.Keeps i key) _ _ :=
    (History.start [] ∅).sync (by rfl) (keeps_schemeService "internal" (.inl rfl))
      (synced_stoppedAt (offering "internal") 100 {})
  obtain ⟨c, after, hrun⟩ :=
    run_stoppedAt (offering "internet-facing") 2 (stoppedAt (offering "internal") 100 {}).2
  refine ⟨?_, sync_not_refused hhistory rfl (keeps_schemeService "internet-facing" (.inr rfl))
    Context.cancels_stopping hrun fun _ hforeign => hforeign.elim⟩
  set_option maxRecDepth 100000 in decide +kernel

end

end Converge

end Balancer
