import Balancer.Proofs.Converge.Listeners
import Balancer.Proofs.Routing

/-!
# The listeners of a Service

* `yields_each`, `visits_each` : deleting listeners in turn;
* `Stale a specs s k l` : a listener of a load balancer that is on the port of no spec. `stale` finds these
  (`mem_staleArns`), and can put them in order again when some of them are gone (`isOk_stale`);
* `ListenersMet` : every spec has its listener, and no listener is stale. `convergeListeners` brings that
  about (`yields_convergeListeners`), rests where it holds (`rests_convergeListeners`) and can be done again
  from any state that it visits (`resumes_convergeListeners`).
-/

namespace Balancer

set_option autoImplicit false

namespace Converge

open Cluster Routing Resources

/-! ## Deleting listeners in turn -/

section

variable {α : Type} {loop : List α → Program Unit} {step : α → Program Unit} {arn : α → String} {xs : List α}
  {s u : Resources}

theorem yields_each (hnil : loop [] = pure ()) (hcons : ∀ x xs, loop (x :: xs) = step x >>= fun _ => loop xs)
    (hstep : ∀ x ∈ xs, ∀ s, (step x).Does s () (s.dropListeners [.text (arn x)])) :
    (loop xs).Yields s () (s.dropListeners (xs.map fun x => .text (arn x))) := by
  induction xs generalizing s with
  | nil => simp [hnil, dropListeners_nil]
  | cons x xs ih =>
    obtain ⟨hx, hxs⟩ := List.forall_mem_cons.1 hstep
    rw [hcons, (hx s).yields_bind_iff]
    have hrest := ih hxs (s := s.dropListeners [.text (arn x)])
    rwa [dropListeners_dropListeners] at hrest

theorem visits_each (hnil : loop [] = pure ()) (hcons : ∀ x xs, loop (x :: xs) = step x >>= fun _ => loop xs)
    (hstep : ∀ x ∈ xs, ∀ s, (step x).Does s () (s.dropListeners [.text (arn x)])) (h : (loop xs).Visits s u) :
    ∃ gone, gone ⊆ (xs.map fun x => Key.text (arn x)) ∧ u = s.dropListeners gone := by
  induction xs generalizing s with
  | nil =>
    rw [hnil] at h
    exact ⟨[], by simp, by rw [Program.visits_pure.1 h, dropListeners_nil]⟩
  | cons x xs ih =>
    obtain ⟨hx, hxs⟩ := List.forall_mem_cons.1 hstep
    rw [hcons] at h
    rcases (hx s).visits_bind h with rfl | h
    · exact ⟨[], by simp, by rw [dropListeners_nil]⟩
    · obtain ⟨gone, hgone, rfl⟩ := ih hxs h
      exact ⟨.text (arn x) :: gone, List.cons_subset_cons _ hgone, dropListeners_dropListeners s [_] gone⟩

end

/-- The ARN of a described listener. -/
def describedArn (listener : Value) : String :=
  match listener.item "ListenerArn" with
  | .ok (.text arn) => arn
  | _ => ""

/-- The listener is described with its ARN. -/
def HasArn (listener : Value) : Prop := listener.item "ListenerArn" = .ok (.text (describedArn listener))

theorem hasArn_of_get {l : Fields} {arn : String} (h : Fields.get l "ListenerArn" = .text arn) :
    HasArn (.object l) ∧ describedArn (.object l) = arn := by
  have hitem : (Value.object l).item "ListenerArn" = .ok (.text arn) := Fields.item_of_get_text h
  have harn : describedArn (.object l) = arn := by rw [describedArn, hitem]
  exact ⟨by rw [HasArn, harn, hitem], harn⟩

section

variable {s u : Resources}

theorem does_deleteListener {listener : Value} (h : HasArn listener) (s : Resources) :
    (do
      let arn ← listener.item "ListenerArn"
      Program.answer (.deleteListener arn) :
    Program Unit).Does s () (s.dropListeners [.text (describedArn listener)]) :=
  (Program.does_lift h s).before (Program.does_answer (perform_deleteListener s _))

theorem deleteListeners_each {row : List (Key × Value)} (h : ∀ e ∈ row, HasArn e.2) :
    (deleteListeners row).Yields s () (s.dropListeners (row.map fun e => .text (describedArn e.2))) ∧
      ∀ u, (deleteListeners row).Visits s u →
        ∃ gone, gone ⊆ (row.map fun e => Key.text (describedArn e.2)) ∧ u = s.dropListeners gone := by
  let step (e : Key × Value) : Program Unit := do
    let arn ← e.2.item "ListenerArn"
    Program.answer (.deleteListener arn)
    Program.info "DELETE" ("listener on port " ++ e.1.toValue.shown ++ " deleted")
  have hcons : ∀ e row, deleteListeners (e :: row) = step e >>= fun _ => deleteListeners row := by
    intro e row
    simp only [step, bind_assoc]
    rfl
  have hstep : ∀ e ∈ row, ∀ s, (step e).Does s ()
      (s.dropListeners [.text (describedArn e.2)]) := fun e he s =>
    (Program.does_lift (h e he) s).before
      ((Program.does_answer (perform_deleteListener s _)).after (Program.does_info _ _ _))
  exact ⟨yields_each rfl hcons hstep, fun u hu => visits_each rfl hcons hstep hu⟩

theorem deleteEach_each {listeners : List Value} (h : ∀ l ∈ listeners, HasArn l) :
    (deleteEach listeners).Yields s () (s.dropListeners (listeners.map fun l => .text (describedArn l))) ∧
      ∀ u, (deleteEach listeners).Visits s u →
        ∃ gone, gone ⊆ (listeners.map fun l => Key.text (describedArn l)) ∧ u = s.dropListeners gone := by
  let step (l : Value) : Program Unit := do
    let arn ← l.item "ListenerArn"
    Program.answer (.deleteListener arn)
  have hcons : ∀ l ls, deleteEach (l :: ls) = step l >>= fun _ => deleteEach ls := by
    intro l ls
    simp only [step, bind_assoc]
    rfl
  have hstep : ∀ l ∈ listeners, ∀ s, (step l).Does s ()
      (s.dropListeners [.text (describedArn l)]) := fun l hl s =>
    does_deleteListener (h l hl) s
  exact ⟨yields_each rfl hcons hstep, fun u hu => visits_each rfl hcons hstep hu⟩

end

/-! ## Stale listeners -/

/-- A listener of a load balancer that is on the port of no spec. -/
structure Stale (a : String) (specs : List ListenerSpec) (s : Resources) (k : Key) (l : Fields) : Prop where
  there : s.listeners.get? k = some l
  lb : Fields.get l "LoadBalancerArn" = .text a
  off : ∀ spec ∈ specs, ¬ On a (portKey spec) l

section

variable {a : String} {specs : List ListenerSpec} {current current' : Table Key Value}
  {row : List (Key × Value)} {gone : List Key} {k : Key} {l : Fields} {K : Key → Prop} {s t u : Resources}

/-- Changes on the ports of specs leave the stale listeners. -/
theorem OnPorts.stale_iff (h : OnPorts a K s u) (hK : ∀ p, K p → ∃ spec ∈ specs, p = portKey spec) :
    Stale a specs u k l ↔ Stale a specs s k l := by
  constructor
  · rintro ⟨hk, hlb, hoff⟩
    refine ⟨(h.new k l hk).resolve_right ?_, hlb, hoff⟩
    rintro ⟨p, hp, hon⟩
    obtain ⟨spec, hspec, rfl⟩ := hK p hp
    exact hoff spec hspec hon
  · rintro ⟨hk, hlb, hoff⟩
    refine ⟨h.kept k l hk fun p hp hon => ?_, hlb, hoff⟩
    obtain ⟨spec, hspec, rfl⟩ := hK p hp
    exact hoff spec hspec hon

theorem stale_dropListeners : Stale a specs (s.dropListeners gone) k l ↔
    Stale a specs s k l ∧ gone.any (k == ·) = false := by
  have hget : (s.dropListeners gone).listeners.get? k = some l ↔
      s.listeners.get? k = some l ∧ gone.any (k == ·) = false := by
    rw [dropListeners_listeners, Table.get?_eraseAll]
    cases gone.any (k == ·) <;> simp
  constructor
  · rintro ⟨hk, hlb, hoff⟩
    exact ⟨⟨(hget.1 hk).1, hlb, hoff⟩, (hget.1 hk).2⟩
  · rintro ⟨⟨hk, hlb, hoff⟩, hg⟩
    exact ⟨hget.2 ⟨hk, hg⟩, hlb, hoff⟩

/-- Stale listeners that are deleted are on ports of no spec. -/
theorem onPorts_dropListeners (hs : s.WellFormed) (hport : Portful a s)
    (hgone : ∀ k ∈ gone, ∃ l, Stale a specs s k l) :
    OnPorts a (fun p => ∀ spec ∈ specs, (portKey spec == p) = false) s (s.dropListeners gone) where
  same := ⟨_, _, rfl⟩
  kept k l hl hK := by
    rw [dropListeners_listeners, Table.get?_eraseAll, if_neg, hl]
    intro hany
    obtain ⟨k', hk', hkk⟩ := List.any_eq_true.1 hany
    obtain ⟨l', hstale⟩ := hgone k' hk'
    obtain ⟨arn, rfl, -⟩ := hs.listenerOwn hstale.there
    obtain rfl := Key.eq_text_of_beq hkk
    obtain rfl := Option.some.inj (hl.symm.trans hstale.there)
    obtain ⟨p, hp⟩ := hport _ _ hl hstale.lb
    have hon : On a p l := ⟨hstale.lb, p, hp, BEq.rfl⟩
    refine hK p (fun spec hspec => Bool.eq_false_iff.2 fun hpp => ?_) hon
    exact hstale.off spec hspec (hon.congr (BEq.symm hpp))
  new k l hl := .inl (Table.get?_of_get?_eraseAll hl)

theorem mem_staleEntries {e : Key × Value} :
    e ∈ (current.entries.filter fun l => !specs.any fun s => l.1 == portKey s) ↔
      e ∈ current.entries ∧ ∀ spec ∈ specs, (e.1 == portKey spec) = false := by
  rw [List.mem_filter, Bool.not_eq_true', List.any_eq_false]
  simp

/-- A described listener on no port of a spec is stale. -/
theorem stale_of_mem (hknow : ∀ k, Knows current a s k) {e : Key × Value} (he : e ∈ current.entries)
    (hoff : ∀ spec ∈ specs, (e.1 == portKey spec) = false) :
    ∃ arn l, e.2 = .object l ∧ On a e.1 l ∧ Stale a specs s (.text arn) l := by
  have hk := hknow e.1
  unfold Knows at hk
  rw [Table.get?_of_mem he] at hk
  obtain ⟨arn, l, hv, hl, hon⟩ := hk
  refine ⟨arn, l, hv, hon, hl, hon.1, fun spec hspec hon' => ?_⟩
  have hkk := hon.unique hon'
  rw [hoff spec hspec] at hkk
  cases hkk

/-- A stale listener is described on its port. -/
theorem mem_of_stale (hs : s.WellFormed) (hknow : ∀ k, Knows current a s k) {p : Key}
    (h : Stale a specs s k l) (hon : On a p l) : ∃ e ∈ current.entries, (e.1 == p) = true ∧ e.2 = .object l ∧
      ∀ spec ∈ specs, (e.1 == portKey spec) = false := by
  have hk := hknow p
  unfold Knows at hk
  cases hget : current.get? p with
  | none =>
    rw [hget] at hk
    exact absurd hon (hk k l h.there)
  | some v =>
    rw [hget] at hk
    obtain ⟨arn, l', rfl, hl', hon'⟩ := hk
    obtain rfl := hon.arn_unique hs h.there hl' hon'
    obtain rfl := Option.some.inj (hl'.symm.trans h.there)
    obtain ⟨p', hpp, he⟩ := Entries.mem_of_find? hget
    refine ⟨_, he, hpp, rfl, fun spec hspec => Bool.eq_false_iff.2 fun hps => ?_⟩
    exact h.off spec hspec (hon.congr (BEq.trans (BEq.symm hpp) hps))

/-- The ARNs of the stale listeners. -/
theorem mem_staleArns (hs : s.WellFormed) (hport : Portful a s) (hknow : ∀ k, Knows current a s k)
    (h : stale current specs = .ok row) :
    (∀ e ∈ row, HasArn e.2) ∧
      ∀ k, k ∈ (row.map fun e => Key.text (describedArn e.2)) ↔ ∃ l, Stale a specs s k l := by
  have hmem : ∀ e, e ∈ row ↔
      e ∈ current.entries ∧ ∀ spec ∈ specs, (e.1 == portKey spec) = false := fun e => by
    rw [(sortBy_perm h).mem_iff, mem_staleEntries]
  have hdescribed : ∀ e ∈ row, ∃ arn l, e.2 = .object l ∧ Stale a specs s (.text arn) l ∧ HasArn e.2 ∧
      describedArn e.2 = arn := by
    intro e he
    obtain ⟨arn, l, hv, -, hstale⟩ := stale_of_mem hknow ((hmem e).1 he).1 ((hmem e).1 he).2
    obtain ⟨arn', harn, hown⟩ := hs.listenerOwn hstale.there
    cases harn
    obtain ⟨hhas, hd⟩ := hasArn_of_get hown
    exact ⟨arn, l, hv, hstale, hv ▸ hhas, hv ▸ hd⟩
  refine ⟨fun e he => ?_, fun k => ⟨fun hk => ?_, fun ⟨l, hstale⟩ => ?_⟩⟩
  · obtain ⟨-, -, -, -, hhas, -⟩ := hdescribed e he
    exact hhas
  · obtain ⟨e, he, rfl⟩ := List.mem_map.1 hk
    obtain ⟨arn, l, -, hstale, -, rfl⟩ := hdescribed e he
    exact ⟨l, hstale⟩
  · obtain ⟨p, hp⟩ := hport k l hstale.there hstale.lb
    obtain ⟨e, he, -, hv, hoff⟩ := mem_of_stale hs hknow hstale ⟨hstale.lb, p, hp, BEq.rfl⟩
    obtain ⟨arn, rfl, hown⟩ := hs.listenerOwn hstale.there
    refine List.mem_map.2 ⟨e, (hmem e).2 ⟨he, hoff⟩, ?_⟩
    rw [hv, (hasArn_of_get hown).2]

/-- If stale listeners can be put in order, so can they when some of them are gone. -/
theorem isOk_stale (hs : s.WellFormed) (hknow : ∀ k, Knows current a s k) (hknow' : ∀ k, Knows current' a u k)
    (hle : ∀ k l, Stale a specs u k l → Stale a specs s k l) (h : stale current specs = .ok row) :
    ∃ row', stale current' specs = .ok row' := by
  refine Key.sortBy_of_covered (current'.distinct.sublist List.filter_sublist) (fun e he => ?_) h
  obtain ⟨he, hoff⟩ := mem_staleEntries.1 he
  obtain ⟨arn, l, -, hon, hstale⟩ := stale_of_mem hknow' he hoff
  obtain ⟨d, hd, hde, -, hoff'⟩ := mem_of_stale hs hknow (hle _ _ hstale) hon
  exact ⟨d, mem_staleEntries.2 ⟨hd, hoff'⟩, hde⟩

end

/-! ## The listeners of a Service -/

/-- The listeners that a Service asks for, with their actions. -/
def Asks (service : Value) (settings : ServiceSettings) (groups : TargetGroups) (specs : List ListenerSpec)
    (actions : List (List Fields)) : Prop :=
  listenerSpecs service settings = .ok specs ∧
    (specs.mapM fun spec => buildActions settings spec.backend groups) = .ok actions

/-- The declared actions forward to ARNs that are texts. -/
def TextActions (settings : ServiceSettings) : Prop :=
  ∀ name action, settings.actions.get? name = some action →
    ∃ arn, Fields.get action "TargetGroupArn" = .text arn

/-- The ARNs of target groups are texts. -/
def TextArns (groups : TargetGroups) : Prop :=
  ∀ key g, groups.byBackend.get? key = some g → ∃ arn, g.arn = .text arn

/-- Every listener that a Service asks for is there, and no other one. -/
structure ListenersMet (a : String) (specs : List ListenerSpec) (actions : List (List Fields))
    (u : Resources) : Prop where
  portful : Portful a u
  met : ∀ e ∈ specs.zip actions, ListenerMet a e.1 e.2 u
  only : ∀ k l, ¬ Stale a specs u k l

section

variable {a : String} {service : Value} {settings : ServiceSettings} {groups : TargetGroups}
  {specs : List ListenerSpec} {actions : List (List Fields)} {current : Table Key Value}
  {row : List (Key × Value)} {ls : List Value} {s t u : Resources}

theorem ListenersMet.congr (h : ListenersMet a specs actions s) (hls : u.listeners = s.listeners)
    (htg : ∀ k tg, u.targetGroups.get? k = some tg → s.targetGroups.get? k = some tg) :
    ListenersMet a specs actions u where
  portful k l hl := h.portful k l (hls ▸ hl)
  met e he := by
    obtain ⟨arn, l, hl, hon, hmet⟩ := h.met e he
    exact ⟨arn, l, hls ▸ hl, hon, hmet.imp_right fun ⟨hw, hadmits⟩ => ⟨hw, hadmits.mono htg⟩⟩
  only k l hl := h.only k l ⟨hls ▸ hl.there, hl.lb, hl.off⟩

theorem Asks.distinct (h : Asks service settings groups specs actions) :
    (specs.zip actions).Pairwise fun e e' => e.1.port ≠ e'.1.port := by
  have hlen : specs.length = actions.length := (mapM_eq_ok_iff.1 h.2).length_eq
  have hports : ((specs.zip actions).map (·.1)).Pairwise fun x y => x.port ≠ y.port := by
    rw [List.map_fst_zip (Nat.le_of_eq hlen)]
    exact List.pairwise_map.1 (listenerSpecs_distinct h.1)
  rwa [List.pairwise_map] at hports

theorem Asks.distinctPorts (h : Asks service settings groups specs actions) :
    DistinctPorts (specs.zip actions) := by
  refine h.distinct.imp fun {e e'} hne => Bool.eq_false_iff.2 fun hk => hne ?_
  have hmeaning := Key.beq_iff_meaning.1 hk
  simpa [portKey, Key.meaning, Number.reduced] using hmeaning

theorem Asks.normal (h : Asks service settings groups specs actions) :
    ∀ e ∈ specs.zip actions, ∃ ns, normalize (.list (e.2.map .object)) = .ok ns := by
  intro e he
  obtain ⟨spec, -, hbuild⟩ := mem_of_mapM h.2 e.2 (List.of_mem_zip he).2
  obtain ⟨action, haction⟩ := exists_numbered hbuild
  rw [haction]
  exact normalize_numbered action

/-- Each listener is asked for with the actions that are built for its backend. -/
theorem Asks.built (h : Asks service settings groups specs actions) {e : ListenerSpec × List Fields}
    (he : e ∈ specs.zip actions) : e.1 ∈ specs ∧ buildActions settings e.1.backend groups = .ok e.2 :=
  ⟨(List.of_mem_zip he).1, List.forall₂_zip (mapM_eq_ok_iff.1 h.2) he⟩

theorem Asks.exists_built (h : Asks service settings groups specs actions) {spec : ListenerSpec}
    (hspec : spec ∈ specs) :
    ∃ built, (spec, built) ∈ specs.zip actions ∧ buildActions settings spec.backend groups = .ok built := by
  obtain ⟨hlen, hzip⟩ := List.forall₂_iff_zip.1 (mapM_eq_ok_iff.1 h.2)
  rw [← List.map_fst_zip (Nat.le_of_eq hlen)] at hspec
  obtain ⟨e, he, rfl⟩ := List.mem_map.1 hspec
  exact ⟨e.2, he, hzip he⟩

/-- An action that is built is a declared one, or forwards to the target group of a backend. -/
theorem action_of_buildActions {b : Backend} {built : List Fields}
    (h : buildActions settings b groups = .ok built) :
    ∃ action, built = numbered [action] ∧
      ((∃ name, settings.actions.get? name = some action ∧ Fields.get action "Type" = .text "forward") ∨
        Actions.isUsed b.port = false ∧
          ∃ key g, b.key = .ok key ∧ groups.byBackend.get? key = some g ∧ action = forward g.arn) := by
  unfold buildActions at h
  split at h
  · obtain ⟨action, hfind, h⟩ := bind_eq_ok_iff.1 h
    cases h
    obtain ⟨found, hdeclared, hfind⟩ := bind_eq_ok_iff.1 hfind
    cases found with
    | none => cases hfind
    | some declared =>
      obtain ⟨name, hname⟩ : ∃ name, settings.actions.get? name = some declared := by
        obtain ⟨key, -, hdeclared⟩ := bind_eq_ok_iff.1 hdeclared
        split at hdeclared
        · exact ⟨_, Except.ok.inj hdeclared⟩
        · cases hdeclared
      dsimp only at hfind
      split at hfind
      · cases hfind
      rename_i htype
      split at hfind
      · cases hfind
      cases hfind
      have htype : Fields.get action "Type" = .text "forward" := by
        simpa [Actions.isSupported, Actions.supportedTypes] using htype
      exact ⟨action, rfl, .inl ⟨name, hname, htype⟩⟩
  · rename_i hused
    obtain ⟨key, hkey, h⟩ := bind_eq_ok_iff.1 h
    split at h
    · cases h
    · rename_i group hgroup
      cases h
      exact ⟨forward group.arn, rfl, .inr ⟨Bool.eq_false_iff.2 hused, key, group, hkey, hgroup, rfl⟩⟩

/-- An action that is built is of texts. -/
theorem texts_of_buildActions {b : Backend} {built : List Fields} (hactions : TextActions settings)
    (hgroups : TextArns groups) (h : buildActions settings b groups = .ok built) :
    ∃ action type arn, built = numbered [action] ∧
      Fields.get action "Type" = .text type ∧ Fields.get action "TargetGroupArn" = .text arn := by
  obtain ⟨action, hbuilt, ⟨name, hname, htype⟩ | ⟨-, key, g, -, hg, rfl⟩⟩ := action_of_buildActions h
  · obtain ⟨arn, harn⟩ := hactions name action hname
    exact ⟨action, _, arn, hbuilt, htype, harn⟩
  · obtain ⟨arn, harn⟩ := hgroups key g hg
    exact ⟨forward g.arn, "forward", arn, hbuilt, rfl, harn ▸ rfl⟩

/-- The actions that are asked for equal themselves as they are compared. -/
theorem Asks.sameActions_self (h : Asks service settings groups specs actions)
    (hactions : TextActions settings) (hgroups : TextArns groups) {e : ListenerSpec × List Fields}
    (he : e ∈ specs.zip actions) {ns : List Fields} (hn : normalize (.list (e.2.map .object)) = .ok ns) :
    sameActions ns ns = true := by
  obtain ⟨spec, -, hbuild⟩ := mem_of_mapM h.2 e.2 (List.of_mem_zip he).2
  obtain ⟨action, type, arn, haction, htype, harn⟩ := texts_of_buildActions hactions hgroups hbuild
  rw [haction, normalize_texts htype harn] at hn
  cases hn
  exact sameActions_texts type arn

theorem Asks.portsOf {p : Key} (h : PortsOf (specs.zip actions) p) : ∃ spec ∈ specs, p = portKey spec := by
  obtain ⟨e, he, rfl⟩ := h
  exact ⟨e.1, (List.of_mem_zip he).1, rfl⟩

/-- How `convergeListeners` runs. -/
theorem yields_convergeListeners_iff (hs : s.WellFormed) :
    (convergeListeners (.text a) service settings groups).Yields s ls t ↔
      ∃ specs actions current t₁ row, Asks service settings groups specs actions ∧
        byPort ((s.listenersOf (.text a)).map .object) = .ok current ∧
        (ensureListeners (.text a) current (specs.zip actions)).Yields s ls t₁ ∧
        stale current specs = .ok row ∧ t = t₁.dropListeners (row.map fun e => .text (describedArn e.2)) := by
  have hread := Program.does_answer (perform_listeners s (.text a))
  have hdelete : ∀ {specs actions current t₁ row}, Asks service settings groups specs actions →
      byPort ((s.listenersOf (.text a)).map .object) = .ok current → stale current specs = .ok row →
      (deleteListeners row).Yields t₁ () (t₁.dropListeners (row.map fun e => .text (describedArn e.2))) := by
    intro specs actions current t₁ row hasks hcur hrow
    obtain ⟨hport, hknow⟩ := knows_byPort hs hcur
    exact (deleteListeners_each (mem_staleArns hs hport hknow hrow).1).1
  unfold convergeListeners
  constructor
  · intro h
    obtain ⟨specs, hspecs, h⟩ := Program.yields_lift_bind.1 h
    obtain ⟨actions, hactions, h⟩ := Program.yields_lift_bind.1 h
    obtain ⟨current, hcur, h⟩ := Program.yields_lift_bind.1 (hread.yields_bind_iff.1 h)
    obtain ⟨ls', t₁, hls, h⟩ := Program.yields_bind.1 h
    obtain ⟨row, hrow, h⟩ := Program.yields_lift_bind.1 h
    obtain ⟨_, t₂, hdel, h⟩ := Program.yields_bind.1 h
    obtain ⟨rfl, rfl⟩ := Program.yields_pure.1 h
    obtain ⟨-, rfl⟩ := (hdelete ⟨hspecs, hactions⟩ hcur hrow).unique hdel
    exact ⟨specs, actions, current, t₁, row, ⟨hspecs, hactions⟩, hcur, hls, hrow, rfl⟩
  · rintro ⟨specs, actions, current, t₁, row, hasks, hcur, hls, hrow, rfl⟩
    refine Program.yields_lift_bind.2 ⟨specs, hasks.1, Program.yields_lift_bind.2 ⟨actions, hasks.2, ?_⟩⟩
    refine hread.yields_bind_iff.2 (Program.yields_lift_bind.2 ⟨current, hcur, ?_⟩)
    refine Program.yields_bind.2 ⟨ls, t₁, hls, Program.yields_lift_bind.2 ⟨row, hrow, ?_⟩⟩
    exact Program.yields_bind.2 ⟨(), _, hdelete hasks hcur hrow, Program.yields_pure.2 ⟨rfl, rfl⟩⟩

/-- Where a run of `convergeListeners` is cut off: before it has changed anything, while it ensures listeners,
or while it deletes stale ones. -/
theorem visits_convergeListeners (hs : s.WellFormed)
    (h : (convergeListeners (.text a) service settings groups).Visits s u) :
    u = s ∨ ∃ specs actions current, Asks service settings groups specs actions ∧
      byPort ((s.listenersOf (.text a)).map .object) = .ok current ∧
      ((ensureListeners (.text a) current (specs.zip actions)).Visits s u ∨
        ∃ ls t₁ row gone, (ensureListeners (.text a) current (specs.zip actions)).Yields s ls t₁ ∧
          stale current specs = .ok row ∧ gone ⊆ (row.map fun e => Key.text (describedArn e.2)) ∧
          u = t₁.dropListeners gone) := by
  have hread := Program.does_answer (perform_listeners s (.text a))
  unfold convergeListeners at h
  rcases Program.visits_lift_bind.1 h with rfl | ⟨specs, hspecs, h⟩
  · exact .inl rfl
  rcases Program.visits_lift_bind.1 h with rfl | ⟨actions, hactions, h⟩
  · exact .inl rfl
  rcases hread.visits_bind h with rfl | h
  · exact .inl rfl
  rcases Program.visits_lift_bind.1 h with rfl | ⟨current, hcur, h⟩
  · exact .inl rfl
  refine .inr ⟨specs, actions, current, ⟨hspecs, hactions⟩, hcur, ?_⟩
  rcases Program.visits_bind.1 h with hu | ⟨ls, t₁, hls, h⟩
  · exact .inl hu
  rcases Program.visits_lift_bind.1 h with rfl | ⟨row, hrow, h⟩
  · exact .inl hls.visits
  obtain ⟨hport, hknow⟩ := knows_byPort hs hcur
  obtain ⟨hyields, hvisits⟩ := deleteListeners_each (s := t₁) (mem_staleArns hs hport hknow hrow).1
  rcases Program.visits_bind.1 h with hu | ⟨_, t₂, ht₂, hu⟩
  · obtain ⟨gone, hgone, rfl⟩ := hvisits u hu
    exact .inr ⟨ls, t₁, row, gone, hls, hrow, hgone, rfl⟩
  · rw [Program.visits_pure.1 hu]
    obtain ⟨-, rfl⟩ := hyields.unique ht₂
    exact .inr ⟨ls, t₁, row, _, hls, hrow, fun _ h => h, rfl⟩

/-- What a run of `ensureListeners` leaves of the stale listeners, wherever it is cut off. -/
theorem visits_ensure (hs : s.WellFormed) (hasks : Asks service settings groups specs actions)
    (hcur : byPort ((s.listenersOf (.text a)).map .object) = .ok current)
    (h : (ensureListeners (.text a) current (specs.zip actions)).Visits s u) :
    u.WellFormed ∧ Portful a u ∧ ∀ k l, Stale a specs u k l ↔ Stale a specs s k l := by
  obtain ⟨hport, hknow⟩ := knows_byPort hs hcur
  obtain ⟨hu, hsu⟩ := always_ensureListeners hs hasks.distinctPorts (fun e _ => hknow _) u h
  exact ⟨hu, hsu.portful hport, fun k l => hsu.stale_iff fun p => Asks.portsOf⟩

/-- Deleting stale listeners after all specs were ensured leaves the ports of the specs alone. -/
theorem onPorts_sweep {gone : List Key} (hs : s.WellFormed)
    (hasks : Asks service settings groups specs actions)
    (hcur : byPort ((s.listenersOf (.text a)).map .object) = .ok current)
    (hls : (ensureListeners (.text a) current (specs.zip actions)).Yields s ls t)
    (hrow : stale current specs = .ok row) (hgone : gone ⊆ (row.map fun e => Key.text (describedArn e.2))) :
    OnPorts a (fun p => ∀ spec ∈ specs, (portKey spec == p) = false) t (t.dropListeners gone) := by
  obtain ⟨hport, hknow⟩ := knows_byPort hs hcur
  obtain ⟨ht, hport', hstale⟩ := visits_ensure hs hasks hcur hls.visits
  refine onPorts_dropListeners ht hport' fun k hk => ?_
  obtain ⟨l, hl⟩ := ((mem_staleArns hs hport hknow hrow).2 k).1 (hgone hk)
  exact ⟨l, (hstale k l).2 hl⟩

/-- When the listeners of all specs are there, they stay so while stale ones are deleted. -/
theorem sweep {gone : List Key} (hs : s.WellFormed) (hasks : Asks service settings groups specs actions)
    (hcur : byPort ((s.listenersOf (.text a)).map .object) = .ok current)
    (hls : (ensureListeners (.text a) current (specs.zip actions)).Yields s ls t)
    (hrow : stale current specs = .ok row) (hgone : gone ⊆ (row.map fun e => Key.text (describedArn e.2))) :
    (t.dropListeners gone).WellFormed ∧ Portful a (t.dropListeners gone) ∧
      (∀ e ∈ specs.zip actions, ListenerMet a e.1 e.2 (t.dropListeners gone)) ∧
      ∀ k l, Stale a specs (t.dropListeners gone) k l ↔ Stale a specs s k l ∧ gone.any (k == ·) = false := by
  obtain ⟨hport, hknow⟩ := knows_byPort hs hcur
  obtain ⟨ht, hport', hstale⟩ := visits_ensure hs hasks hcur hls.visits
  have hon := onPorts_sweep hs hasks hcur hls hrow hgone
  refine ⟨ht.dropListeners gone, hon.portful hport', fun e he => ?_, fun k l => ?_⟩
  · have hmet := yields_ensureListeners hs hasks.distinctPorts (fun e _ => hknow _) hls e he
    exact hmet.of_onPorts hon fun p hp => hp e.1 (List.of_mem_zip he).1
  · rw [stale_dropListeners, hstale]

/-- What a run of `convergeListeners` leaves alone, wherever it is cut off. -/
theorem always_convergeListeners (hs : s.WellFormed) :
    (convergeListeners (.text a) service settings groups).Always
      (fun u => u.WellFormed ∧ OnPorts a (fun _ => True) s u) s := by
  intro u hu
  rcases visits_convergeListeners hs hu with rfl | ⟨specs, actions, current, hasks, hcur, hu⟩
  · exact ⟨hs, OnPorts.refl a _ u⟩
  obtain ⟨-, hknow⟩ := knows_byPort hs hcur
  have hensure := always_ensureListeners hs hasks.distinctPorts fun e _ => hknow (portKey e.1)
  rcases hu with hu | ⟨ls, t, row, gone, hls, hrow, hgone, rfl⟩
  · exact ⟨(hensure u hu).1, (hensure u hu).2.mono fun _ _ => trivial⟩
  · obtain ⟨ht, hst⟩ := hensure.yields hls
    have hsweep := onPorts_sweep hs hasks hcur hls hrow hgone
    exact ⟨ht.dropListeners gone, (hst.mono fun _ _ => trivial).trans (hsweep.mono fun _ _ => trivial)⟩

theorem yields_convergeListeners (hs : s.WellFormed)
    (h : (convergeListeners (.text a) service settings groups).Yields s ls t) :
    ∃ specs actions, Asks service settings groups specs actions ∧ ListenersMet a specs actions t := by
  obtain ⟨specs, actions, current, t₁, row, hasks, hcur, hls, hrow, rfl⟩ :=
    (yields_convergeListeners_iff hs).1 h
  obtain ⟨hport, hknow⟩ := knows_byPort hs hcur
  obtain ⟨-, hport', hmet, hstale⟩ := sweep hs hasks hcur hls hrow (fun _ h => h)
  refine ⟨specs, actions, hasks, hport', hmet, fun k l hl => ?_⟩
  obtain ⟨hl, hany⟩ := (hstale k l).1 hl
  have hmem := ((mem_staleArns hs hport hknow hrow).2 k).2 ⟨l, hl⟩
  exact List.any_eq_false.1 hany k hmem BEq.rfl

/-- Where the listeners of a Service are there and no others, nothing more is done to them. -/
theorem rests_convergeListeners (hu : u.WellFormed) (hasks : Asks service settings groups specs actions)
    (h : ListenersMet a specs actions u) :
    (convergeListeners (.text a) service settings groups).Rests
      (∀ e ∈ specs.zip actions, DefiniteListener e.1 e.2)
      (fun _ => ()) u () := by
  obtain ⟨current, hcur⟩ := isOk_byPort h.portful
  obtain ⟨hport, hknow⟩ := knows_byPort hu hcur
  have hstale : stale current specs = .ok [] := by
    have hnil : (current.entries.filter fun l => !specs.any fun s => l.1 == portKey s) = [] := by
      rw [List.eq_nil_iff_forall_not_mem]
      intro e he
      obtain ⟨he, hoff⟩ := mem_staleEntries.1 he
      obtain ⟨arn, l, -, -, hl⟩ := stale_of_mem hknow he hoff
      exact h.only _ l hl
    rw [stale, hnil]
    rfl
  refine Program.Rests.lift_bind hasks.1 (Program.Rests.lift_bind hasks.2 ?_)
  have hread := Program.ends_answer.2 ⟨perform_listeners u (.text a), rfl⟩
  refine Program.Rests.bind (v := id) (Program.Rests.of_ends hread) ?_
  rintro _ rfl
  refine Program.Rests.lift_bind hcur ?_
  refine Program.Rests.bind
    (rests_ensureListeners hu h.portful (fun e _ => hknow _) hasks.normal h.met) fun _ _ => ?_
  refine Program.Rests.lift_bind hstale ?_
  exact Program.Rests.of_ends (Program.ends_pure.2 ⟨rfl, rfl, rfl⟩)

/-- Where some stale listeners are gone already, those that are found stale again are the others. -/
theorem stale_again {gone : List Key} {current' : Table Key Value} (hs : s.WellFormed) (hu : u.WellFormed)
    (hcur : byPort ((s.listenersOf (.text a)).map .object) = .ok current)
    (hcur' : byPort ((u.listenersOf (.text a)).map .object) = .ok current')
    (hrow : stale current specs = .ok row) (hgone : gone ⊆ (row.map fun e => Key.text (describedArn e.2)))
    (hstale : ∀ k l, Stale a specs u k l ↔ Stale a specs s k l ∧ gone.any (k == ·) = false) (t : Resources) :
    ∃ row', stale current' specs = .ok row' ∧
      (t.dropListeners gone).dropListeners (row'.map fun e => .text (describedArn e.2)) =
        t.dropListeners (row.map fun e => .text (describedArn e.2)) := by
  obtain ⟨hport, hknow⟩ := knows_byPort hs hcur
  obtain ⟨hport', hknow'⟩ := knows_byPort hu hcur'
  obtain ⟨row', hrow'⟩ := isOk_stale hs hknow hknow' (fun k l hl => ((hstale k l).1 hl).1) hrow
  have hmem := (mem_staleArns hs hport hknow hrow).2
  refine ⟨row', hrow', ?_⟩
  rw [dropListeners_dropListeners]
  refine dropListeners_congr t fun k => ?_
  rw [List.mem_append, (mem_staleArns hu hport' hknow' hrow').2, hmem]
  constructor
  · rintro (hk | ⟨l, hl⟩)
    · exact (hmem k).1 (hgone hk)
    · exact ⟨l, ((hstale k l).1 hl).1⟩
  · rintro ⟨l, hl⟩
    cases hany : gone.any (k == ·) with
    | false => exact .inr ⟨l, (hstale k l).2 ⟨hl, hany⟩⟩
    | true =>
      obtain ⟨k', hk', hkk⟩ := List.any_eq_true.1 hany
      obtain ⟨e, -, rfl⟩ := List.mem_map.1 (hgone hk')
      rw [Key.eq_text_of_beq hkk]
      exact .inl hk'

/-- Cut off anywhere, `convergeListeners` can be done again. -/
theorem resumes_convergeListeners (hs : s.WellFormed) :
    (convergeListeners (.text a) service settings groups).Resumes (fun _ => ()) s := by
  intro ls t u ht hu
  obtain ⟨specs, actions, current, t₁, row, hasks, hcur, hls, hrow, rfl⟩ :=
    (yields_convergeListeners_iff hs).1 ht
  obtain ⟨hport, hknow⟩ := knows_byPort hs hcur
  -- the listeners are found again as they are described now, and what was stale is still
  -- there or gone already
  have hagain : ∀ gone, gone ⊆ (row.map fun e => Key.text (describedArn e.2)) → u.WellFormed → Portful a u →
      (∀ k l, Stale a specs u k l ↔ Stale a specs s k l ∧ gone.any (k == ·) = false) →
      (∀ current', (∀ k, Knows current' a u k) →
        ∃ ls', (ensureListeners (.text a) current' (specs.zip actions)).Yields u ls'
          (t₁.dropListeners gone)) →
      ∃ ls', (convergeListeners (.text a) service settings groups).Yields u ls'
        (t₁.dropListeners (row.map fun e => .text (describedArn e.2))) := by
    intro gone hgone huwf hportu hstale hensure
    obtain ⟨current', hcur'⟩ := isOk_byPort hportu
    obtain ⟨ls', hls'⟩ := hensure current' (knows_byPort huwf hcur').2
    obtain ⟨row', hrow', hdrop⟩ := stale_again hs huwf hcur hcur' hrow hgone hstale t₁
    exact ⟨ls', (yields_convergeListeners_iff huwf).2
      ⟨specs, actions, current', _, row', hasks, hcur', hls', hrow', hdrop.symm⟩⟩
  suffices h : ∃ ls', (convergeListeners (.text a) service settings groups).Yields u ls'
      (t₁.dropListeners (row.map fun e => .text (describedArn e.2))) by
    obtain ⟨ls', h⟩ := h
    exact ⟨ls', h, rfl⟩
  rcases visits_convergeListeners hs hu with rfl | ⟨specs', actions', current', hasks', hcur', hu⟩
  · exact ⟨ls, ht⟩
  obtain ⟨rfl, rfl⟩ : specs' = specs ∧ actions' = actions := by
    have hspecs := Except.ok.inj (hasks'.1.symm.trans hasks.1)
    subst hspecs
    exact ⟨rfl, Except.ok.inj (hasks'.2.symm.trans hasks.2)⟩
  obtain rfl := Except.ok.inj (hcur'.symm.trans hcur)
  rcases hu with hu | ⟨ls', t', row', gone, hls', hrow', hgone, rfl⟩
  · obtain ⟨huwf, hportu, hstale⟩ := visits_ensure hs hasks hcur hu
    refine hagain [] (by simp) huwf hportu (fun k l => by simp [hstale]) fun current'' hknow'' => ?_
    rw [dropListeners_nil]
    exact resumes_ensureListeners hs hport hasks.distinctPorts (fun e _ => hknow _) hasks.normal hls hu
      fun e _ => hknow'' _
  · obtain ⟨rfl, rfl⟩ := hls.unique hls'
    obtain rfl := Except.ok.inj (hrow'.symm.trans hrow)
    obtain ⟨huwf, hportu, hmet, hstale⟩ := sweep hs hasks hcur hls hrow hgone
    refine hagain gone hgone huwf hportu hstale fun current'' hknow'' => ?_
    obtain ⟨ls'', h, -⟩ := (rests_ensureListeners huwf hportu (fun e _ => hknow'' _) hasks.normal hmet).yields
    exact ⟨ls'', h⟩

end

end Converge

end Balancer
