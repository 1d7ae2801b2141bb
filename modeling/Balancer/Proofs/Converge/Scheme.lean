import Balancer.Proofs.Cluster.Whitelist
import Balancer.Proofs.Converge.Lockstep

/-!
# Load balancers that face the internet

* `GivesUp P p` : the program asks requests of a sort only and ends with an error, whatever is
  answered. If such requests leave the cloud as it is, so does the program behind any gate
  (`Asks.run_same`, `GivesUp.run`);
* `CreatesNoLb` : requests that create no load balancer. Only one step of a sync asks any
  other (`asks_convergeLb`);
* `NewLbs Q` : requests that create a load balancer that faces the internet only with parameters
  that satisfy `Q`. Where the scheme is restricted, the parameters are those of a Service on the
  whitelist (`asks_syncOrWarn`);
* `givesUp_syncOrWarn` : the sync of a Service that may not face the internet looks subnets up at most.
-/

namespace Balancer

set_option autoImplicit false

/-! ## Behind a gate -/

namespace Program

variable {α β σ : Type} {P : Request → Prop} {p : Program α} {f : α → Program β}

/-- The program asks requests of a sort only and ends with an error, whatever is answered. -/
def GivesUp (P : Request → Prop) : Program α → Prop
  | done x => ∃ e, x = .error e
  | ask r next => P r ∧ ∀ x, (next x).GivesUp P
  | tell _ next => next.GivesUp P

theorem GivesUp.bind (h : p.GivesUp P) (f : α → Program β) : (p >>= f).GivesUp P := by
  show (p.bind f).GivesUp P
  induction p with
  | done x =>
    obtain ⟨e, rfl⟩ := h
    exact ⟨e, rfl⟩
  | ask r next ih => exact ⟨h.1, fun x => ih x (h.2 x)⟩
  | tell n next ih => exact ih h

theorem Asks.givesUp_bind (h : p.Asks P) (hf : ∀ a, (f a).GivesUp P) : (p >>= f).GivesUp P := by
  show (p.bind f).GivesUp P
  induction p with
  | done x =>
    cases x with
    | ok a => exact hf a
    | error e => exact ⟨e, rfl⟩
  | ask r next ih => exact ⟨h.1, fun x => ih x (h.2 x)⟩
  | tell n next ih => exact ih h

theorem givesUp_lift_bind {x : Except Error α} (hf : ∀ a, x = .ok a → (f a).GivesUp P) :
    ((liftM x : Program α) >>= f).GivesUp P := by
  cases x with
  | ok a => exact hf a rfl
  | error e => exact ⟨e, rfl⟩

theorem GivesUp.warning (h : p.GivesUp P) (reason : String) (text : Error → String) :
    (p.warning reason text).GivesUp P := by
  unfold Program.warning
  induction p with
  | done x =>
    obtain ⟨e, rfl⟩ := h
    exact ⟨e, rfl⟩
  | ask r next ih => exact ⟨h.1, fun x => ih x (h.2 x)⟩
  | tell n next ih => exact ih h

/-- Behind any gate, a program leaves all as it is if its requests do. -/
theorem Asks.run_same (h : p.Asks P) (hP : ∀ r, P r → ∀ m : Memory, (m.perform r).2 = m) (g : Gate σ)
    (c : σ) (m : Memory) :
    (p.run (Memory.cloud g) (c, m)).2.2 = m := by
  induction p generalizing c with
  | done x => rfl
  | ask r next ih =>
    simp only [Program.run, Memory.cloud]
    rcases g.allow r c with ⟨x | x, c'⟩
    · exact ih _ (h.2 _) c'
    · have hsame := hP r h.1 m
      simp only [hsame]
      exact ih _ (h.2 _) c'
  | tell n next ih => exact ih h (g.hear n c)

theorem GivesUp.asks (h : p.GivesUp P) : p.Asks P := by
  induction p with
  | done x => trivial
  | ask r next ih => exact ⟨h.1, fun x => ih x (h.2 x)⟩
  | tell n next ih => exact ih h

theorem GivesUp.fails (h : p.GivesUp P) (c : Cloud σ) (s : σ) : ∃ e, (p.run c s).1 = .error e := by
  induction p generalizing s with
  | done x => exact h
  | ask r next ih => exact ih _ (h.2 _) _
  | tell n next ih => exact ih h _

/-- Behind any gate, a program that gives up fails, and leaves all as it is if its requests do. -/
theorem GivesUp.run (h : p.GivesUp P) (hP : ∀ r, P r → ∀ m : Memory, (m.perform r).2 = m) (g : Gate σ)
    (c : σ) (m : Memory) :
    ∃ e c', p.run (Memory.cloud g) (c, m) = (.error e, (c', m)) := by
  obtain ⟨e, he⟩ := h.fails (Memory.cloud g) (c, m)
  exact ⟨e, _, Prod.ext he (Prod.ext rfl (h.asks.run_same hP g c m))⟩

/-- Behind any gate, what a program records is of the sort of its requests. -/
theorem Asks.records_run (h : p.Asks P) (g : Gate σ) (c : σ) (m : Memory) :
    ∃ new, (p.run (Memory.cloud g) (c, m)).2.2.records = m.records ++ new ∧
      ∀ record ∈ new, ∃ r, P r ∧ r.record? = .ok (some record) := by
  induction p generalizing c m with
  | done x => exact ⟨[], (List.append_nil _).symm, nofun⟩
  | ask r next ih =>
    simp only [Program.run, Memory.cloud]
    rcases g.allow r c with ⟨x | x, c'⟩
    · exact ih _ (h.2 _) c' m
    · obtain ⟨kept, hkept, hone⟩ : ∃ kept, (m.perform r).2.records = m.records ++ kept ∧
          ∀ record ∈ kept, r.record? = .ok (some record) := by
        unfold Memory.perform
        cases hrecord : (do m.resources.refusal r; r.record?) with
        | error e => exact ⟨[], (List.append_nil _).symm, nofun⟩
        | ok record? =>
          obtain ⟨_, -, hrecord⟩ := bind_eq_ok_iff.1 hrecord
          refine ⟨record?.toList, rfl, fun record hmem => ?_⟩
          rw [hrecord, Option.mem_toList.1 hmem]
      obtain ⟨new, hnew, hall⟩ := ih (m.perform r).1 (h.2 _) c' (m.perform r).2
      refine ⟨kept ++ new, hnew.trans (by rw [hkept, List.append_assoc]), fun record hmem => ?_⟩
      rcases List.mem_append.1 hmem with hmem | hmem
      · exact ⟨r, h.1, hone record hmem⟩
      · exact hall record hmem
  | tell n next ih => exact ih h _ m

end Program

namespace Converge

open Cluster Resources Routing Program Trigger

/-! ## Requests that create no load balancer -/

def CreatesNoLb : Request → Prop
  | .createLoadBalancer _ => False
  | _ => True

section

variable {i : Inputs} {service arn key : Value} {settings : ServiceSettings}
  {groups : TargetGroups} {r : Request}

theorem GroupWork.createsNoLb {P : Value → Value → Prop} (h : GroupWork P r) : CreatesNoLb r := by
  cases r with
  | createLoadBalancer params => exact h.elim fun _ h => h.elim
  | _ => trivial

theorem createsNoLb_convergeTargetGroups : (convergeTargetGroups i service settings).Asks CreatesNoLb :=
  (groupWork_convergeTargetGroups (P := fun _ _ => True) fun _ _ _ _ _ _ _ => trivial).mono fun _ =>
    GroupWork.createsNoLb

theorem ListenerWork.createsNoLb (h : ListenerWork r) : CreatesNoLb r := by
  cases r with
  | createLoadBalancer params => exact h.elim
  | _ => trivial

theorem createsNoLb_collect : (collect groups).Asks CreatesNoLb := by
  refine Asks.bind (asks_lift _) fun _ => Asks.bind (asks_answer (P := CreatesNoLb) trivial) fun _ => ?_
  exact Asks.bind (asks_lift _) fun _ => asks_deleteTargetGroups fun _ _ => trivial

theorem createsNoLb_deleteService : (deleteService i key).Asks CreatesNoLb := by
  have hread : ∀ r, CreatesNoLb r → (answer r).Asks CreatesNoLb := fun r h => asks_answer h
  refine Asks.bind (asks_lift _) fun _ =>
    Asks.bind (Asks.bind (asks_lift _) fun n => hread _ trivial) fun live => ?_
  split
  · exact asks_pure _
  · refine Asks.bind (asks_lift _) fun _ => Asks.bind (Asks.bind (hread _ trivial) fun _ => ?_) fun _ => ?_
    · exact asks_deleteEach fun _ _ _ _ => trivial
    refine Asks.bind (Asks.bind (asks_lift _) fun _ => createsNoLb_collect) fun _ => ?_
    exact Asks.bind (hread _ trivial) fun _ => asks_info _ _

/-! ## The load balancer of a Service -/

/-- A request that looks subnets up. -/
def IsSurvey : Request → Prop
  | .clusterSubnets _ | .subnetsNamed _ => True
  | _ => False

theorem IsSurvey.perform (h : IsSurvey r) (m : Memory) : (m.perform r).2 = m := by
  cases r with
  | clusterSubnets key => exact congrArg (Memory.mk _) (List.append_nil _)
  | subnetsNamed names => exact congrArg (Memory.mk _) (List.append_nil _)
  | _ => exact h.elim

/-- A request that creates a load balancer that faces the internet only with parameters
that satisfy a condition. -/
def NewLbs (Q : Fields → Prop) : Request → Prop
  | .createLoadBalancer params =>
    (Fields.get params "Scheme").same (.text internetFacingScheme) = true → Q params
  | _ => True

theorem CreatesNoLb.newLbs {Q : Fields → Prop} (h : CreatesNoLb r) : NewLbs Q r := by
  cases r with
  | createLoadBalancer params => exact h.elim
  | _ => trivial

theorem NewLbs.mono {Q Q' : Fields → Prop} (h : NewLbs Q r)
    (hQ : ∀ params, Q params → Q' params) : NewLbs Q' r := by
  cases r with
  | createLoadBalancer params => exact fun hfaces => hQ params (h hfaces)
  | _ => trivial

/-- The requests by which a load balancer is converged, where the scheme of a new one is looked at. -/
theorem LbWork.newLbs {Q : Fields → Prop}
    (h : LbWork (fun params => (Fields.get params "Scheme").same (.text internetFacingScheme) = true →
      Q params) r) :
    NewLbs Q r := by
  cases r with
  | createLoadBalancer params => exact h
  | _ => trivial

/-- The load balancer of a Service on a whitelist, by its name. -/
def NamesListed (i : Inputs) (w : Whitelist) (service : Value) (params : Fields) : Prop :=
  ∃ ns name n, names service = .ok (ns, name) ∧ w.Lists ns name ∧ i.identity.nameLb ns name = .ok n ∧
    Fields.get params "Name" = .text n

/-- Where the scheme is restricted, a load balancer that faces the internet is created for a Service
on the whitelist only. -/
theorem asks_convergeLb {w : Whitelist} (hrestricted : i.config.restrictScheme.holds = true)
    (hw : i.config.internetFacing = w.toValue) :
    (convergeLb i service settings).Asks (NewLbs (NamesListed i w service)) := by
  refine Asks.mono (lbWork_convergeLb fun ns name n lb params hnames hn hcheck hname hparams hfaces => ?_)
    fun _ => LbWork.newLbs
  obtain ⟨_, -, hparams⟩ := bind_eq_ok_iff.1 hparams
  obtain ⟨_, -, hparams⟩ := bind_eq_ok_iff.1 hparams
  cases hparams
  rcases (checkScheme_eq_ok_iff hrestricted hw).1 hcheck with hother | ⟨ns', name', hlisted, hin⟩
  · cases hother.symm.trans hfaces
  · rw [hnames] at hlisted
    cases hlisted
    exact ⟨ns, name, n, hnames, hin, hn, hname⟩

/-- A Service on no whitelist gets no load balancer that faces the internet. -/
theorem givesUp_convergeLb {w : Whitelist} (hrestricted : i.config.restrictScheme.holds = true)
    (hw : i.config.internetFacing = w.toValue) (hscheme : settings.loadBalancer.scheme = internetFacingScheme)
    (hnot : ∀ ns name, names service = .ok (ns, name) → ¬ w.Lists ns name) :
    (convergeLb i service settings).GivesUp IsSurvey := by
  unfold convergeLb buildLb
  simp only [LawfulMonad.bind_assoc, LawfulMonad.pure_bind]
  refine givesUp_lift_bind fun _ _ => givesUp_lift_bind fun tags _ => givesUp_lift_bind fun n _ => ?_
  refine Asks.givesUp_bind ((surveys_resolveSubnets _ _ _).asks (fun _ => trivial) fun _ => trivial)
    fun subnets => ?_
  -- The configuration has the scheme that the annotations ask for, so that the check fails.
  refine givesUp_lift_bind fun _ hcheck => ?_
  rcases (checkScheme_eq_ok_iff hrestricted hw).1 hcheck with hother | ⟨ns, name, hnames, hlisted⟩
  · rw [hscheme, Value.same_text, beq_self_eq_true] at hother
    cases hother
  · exact absurd hlisted (hnot ns name hnames)

/-! ## The sync of a key -/

/-- Where the scheme is restricted, a load balancer that faces the internet is created for a Service
on the whitelist only. -/
theorem asks_syncOrWarn {w : Whitelist} (hrestricted : i.config.restrictScheme.holds = true)
    (hw : i.config.internetFacing = w.toValue) : (syncOrWarn i key).Asks
      (NewLbs fun params => ∃ service, wantedAt i key = .ok (some service) ∧
        NamesListed i w service params) := by
  refine Asks.warning ?_ _ _
  rw [sync_eq]
  refine asks_lift_bind fun wanted hwanted => ?_
  cases wanted with
  | none => exact Asks.bind (createsNoLb_deleteService.mono fun _ h => h.newLbs) fun _ => asks_pure _
  | some service =>
    refine Asks.bind (p := Program.notice (.subject service)) (by exact trivial) fun _ => ?_
    refine Asks.bind (asks_lift_bind fun k _ => asks_lift_bind fun settings _ => ?_) fun made =>
      Asks.bind (asks_publish made) fun _ => asks_pure _
    refine Asks.bind ((asks_convergeLb hrestricted hw).mono fun r h => h.mono fun params hparams => ?_)
      fun live => ?_
    · exact ⟨service, hwanted, hparams⟩
    · refine Asks.bind (asks_lift _) fun arn => ?_
      refine Asks.bind (createsNoLb_convergeTargetGroups.mono fun _ h => h.newLbs) fun groups => ?_
      refine Asks.bind (listenerWork_convergeListeners.mono fun _ h => h.createsNoLb.newLbs) fun _ => ?_
      refine Asks.bind (createsNoLb_collect.mono fun _ h => h.newLbs) fun _ => ?_
      exact Asks.bind (asks_lift _) fun _ => asks_pure _

/-- The Service of a key is to face the internet, and it is not on a whitelist. -/
def Rejected (i : Inputs) (w : Whitelist) (key : Value) : Prop :=
  ∃ service settings, wantedAt i key = .ok (some service) ∧ settingsOf i service = .ok settings ∧
    settings.loadBalancer.scheme = internetFacingScheme ∧ ∀ ns name, names service = .ok (ns, name) →
      ¬ w.Lists ns name

theorem givesUp_syncOrWarn {w : Whitelist} (hrestricted : i.config.restrictScheme.holds = true)
    (hw : i.config.internetFacing = w.toValue) (h : Rejected i w key) :
    (syncOrWarn i key).GivesUp IsSurvey := by
  obtain ⟨service, settings, hwanted, hsettings, hscheme, hnot⟩ := h
  refine GivesUp.warning ?_ _ _
  rw [sync_eq]
  refine givesUp_lift_bind fun wanted h => ?_
  rw [hwanted] at h
  cases h
  refine Asks.givesUp_bind (asks_lift (P := IsSurvey) (.ok ())) fun _ => GivesUp.bind ?_ _
  rw [convergeService_eq]
  refine givesUp_lift_bind fun k hk => givesUp_lift_bind fun settings' h => GivesUp.bind ?_ _
  obtain ⟨k', hk', hread⟩ := bind_eq_ok_iff.1 hsettings
  rw [hk'] at hk
  cases hk
  rw [hread] at h
  cases h
  exact givesUp_convergeLb hrestricted hw hscheme hnot

end

end Converge

end Balancer
