import Balancer.Proofs.Queue.Run
import Balancer.Queue.Worker
import Mathlib

/-!
# What a worker owes to a key

A worker that takes a key gives it back, and a key that failed is tried again.

* `Binary64.parts?_twoPow?` : the factor of a delay is `2 ^ k` exactly; there is one below `2 ^ 1024` only;
* `Queue.IsBackoff q n d` : `d` is the delay that follows `n` failures; `addRateLimited_ok` adds a key after
  it, and `addRateLimited_error` says that after 1024 failures there is none;
* `Queue.TurnKept` : what a turn owes to its key; `finish_kept_iff` decides it for the end of a turn in any
  state of the queue, and `workOnce_kept_iff` for a whole turn;
* `reachable_turn_not_kept` : a queue in which a failing key is dropped.
-/

namespace Balancer

set_option autoImplicit false

/-! ## Powers of two -/

namespace Binary64

open Float.Model in
/-- The bits of a number are those that it was made from, unless these stand for no number or an infinity. -/
theorem toBits_ofBits {b : UInt64} (h : b.toNat / 2 ^ 52 % 2 ^ 11 ≠ 2047) : (Float.ofBits b).toBits = b := by
  have hvalid : Format.binary64.Valid b.toBitVec := by
    refine ⟨fun hexp => absurd ?_ h⟩
    have hnat := congrArg BitVec.toNat hexp
    rw [UnpackedFloat.unpackExponent_def, BitVec.extractLsb'_toNat, Nat.shiftRight_eq_div_pow] at hnat
    exact hnat
  exact UInt64.toBitVec_inj.1 (UnpackedFloat.pack_unpack_of_valid hvalid)

theorem parts?_twoPow? {k : Nat} (hk : k < 1024) :
    ∃ factor, twoPow? k = some factor ∧ parts? factor = some ⟨false, 2 ^ 52, (k : Int) - 52⟩ := by
  have hbits : (UInt64.ofNat ((k + 1023) * 2 ^ 52)).toNat = (k + 1023) * 2 ^ 52 := by
    rw [UInt64.toNat_ofNat', Nat.mod_eq_of_lt]
    omega
  have hexp : (k + 1023) * 2 ^ 52 / 2 ^ 52 % 2 ^ 11 = k + 1023 := by omega
  have hround : (Float.ofBits (UInt64.ofNat ((k + 1023) * 2 ^ 52))).toBits =
      UInt64.ofNat ((k + 1023) * 2 ^ 52) := by
    apply toBits_ofBits
    rw [hbits, hexp]
    omega
  have hneg : (k + 1023) * 2 ^ 52 / 2 ^ 63 = 0 := by omega
  have hfrac : (k + 1023) * 2 ^ 52 % 2 ^ 52 = 0 := by omega
  have hunbiased : ((k + 1023 : Nat) : Int) - 1075 = k - 52 := by omega
  refine ⟨_, if_pos hk, ?_⟩
  simp only [parts?, Nat.pow_eq, hround, hbits, hneg, hexp, hfrac]
  rw [if_neg (by omega), if_neg (by omega), hunbiased]
  rfl

end Binary64

namespace Queue

variable {σ : Type} {q r : Queue} {k : Key} {n : Nat}

/-! ## Delays -/

/-- The delay after the `n`th failure: `baseDelay * 2 ^ (n - 1)`, but at most `maxDelay`. -/
def IsBackoff (q : Queue) (n : Nat) (delay : Float) : Prop :=
  ∃ factor, Binary64.parts? factor = some ⟨false, 2 ^ 52, (n : Int) - 1 - 52⟩ ∧
    delay = if q.baseDelay * factor < q.maxDelay then q.baseDelay * factor else q.maxDelay

theorem delayAfter?_of_lt (q : Queue) (h : n < 1024) :
    ∃ delay, q.delayAfter? n = some delay ∧ q.IsBackoff (n + 1) delay := by
  obtain ⟨factor, hfactor, hparts⟩ := Binary64.parts?_twoPow? h
  have hexponent : ((n + 1 : Nat) : Int) - 1 - 52 = n - 52 := by omega
  refine ⟨_, by rw [delayAfter?, hfactor]; rfl, factor, ?_, rfl⟩
  rw [hexponent, hparts]

theorem delayAfter?_of_le (q : Queue) (h : 1024 ≤ n) : q.delayAfter? n = none := by
  unfold delayAfter? Binary64.twoPow?
  rw [if_neg (by omega)]
  rfl

theorem requeues_fail (q : Queue) (k : Key) : (q.fail k).2.requeues k = q.requeues k + 1 := by
  show ((q.failures.insert k (q.requeues k + 1)).get? k).getD 0 = _
  rw [Table.get?_insert_self]
  rfl

theorem requeues_forget (q : Queue) (k : Key) : (q.forget k).requeues k = 0 := by
  show ((q.failures.erase k).get? k).getD 0 = _
  rw [Table.get?_erase, BEq.rfl, if_pos rfl]
  rfl

/-! ## Frames -/

/-- Adding a key changes only what is waiting and dirty. -/
theorem add_frame (q : Queue) (k : Key) : ∃ waiting dirty, q.add k = { q with waiting, dirty } := by
  unfold add
  split
  · exact ⟨q.waiting, q.dirty, rfl⟩
  · split
    · exact ⟨q.waiting, _, rfl⟩
    · exact ⟨_, _, rfl⟩

theorem addAll_frame (q : Queue) (ks : List Key) :
    ∃ waiting dirty, q.addAll ks = { q with waiting, dirty } := by
  induction ks generalizing q with
  | nil => exact ⟨q.waiting, q.dirty, rfl⟩
  | cons k ks ih =>
    obtain ⟨waiting, dirty, hadd⟩ := add_frame q k
    obtain ⟨waiting', dirty', hall⟩ := ih (q.add k)
    refine ⟨waiting', dirty', ?_⟩
    rw [addAll, List.foldl_cons]
    refine hall.trans ?_
    rw [hadd]

theorem get_frame (q : Queue) :
    ∃ waiting dirty processing, q.get.2 = { q with waiting, dirty, processing } := by
  unfold get
  split
  · exact ⟨q.waiting, q.dirty, q.processing, rfl⟩
  · exact ⟨_, _, _, rfl⟩

theorem addAfter_frame (q : Queue) (k : Key) (delay : Float) :
    ∃ waiting dirty timers, q.addAfter k delay = { q with waiting, dirty, timers } := by
  unfold addAfter
  split
  · obtain ⟨waiting, dirty, hadd⟩ := add_frame q k
    exact ⟨waiting, dirty, q.timers, hadd⟩
  · split
    · exact ⟨q.waiting, q.dirty, q.timers, rfl⟩
    · exact ⟨q.waiting, q.dirty, _, rfl⟩

theorem addAfter_pending (delay : Float) (hq : q.shuttingDown = false) :
    (q.addAfter k delay).dirty.contains k = true ∨ ⟨k, delay⟩ ∈ (q.addAfter k delay).timers := by
  unfold addAfter
  split
  · exact .inl (dirty_add hq)
  · rw [hq, if_neg Bool.false_ne_true]
    exact .inr (by simp)

/-! ## Failures -/

theorem addRateLimited_ok (h : q.requeues k < 1024) :
    ∃ delay, q.IsBackoff (q.requeues k + 1) delay ∧
      q.addRateLimited k = (.ok (), (q.fail k).2.addAfter k delay) := by
  obtain ⟨delay, hdelay, hbackoff⟩ := q.delayAfter?_of_lt h
  refine ⟨delay, hbackoff, ?_⟩
  unfold addRateLimited fail
  rw [hdelay]

theorem addRateLimited_error (h : 1024 ≤ q.requeues k) :
    q.addRateLimited k = (Mismatch.largeInteger.error, (q.fail k).2) := by
  unfold addRateLimited fail
  rw [q.delayAfter?_of_le h]
  rfl

/-! ## A turn -/

/-- What the turn of a worker owes to its key, from the queue before and after: the worker goes on, the key is
given back, one that failed for now is counted and added again after its delay, and any other is forgotten. -/
structure TurnKept (q : Queue) (k : Key) (result : Except Error Unit) (answer : Except Error Bool)
    (r : Queue) : Prop where
  answered : answer = .ok true
  released : r.processing.contains k = false
  counted (e : Error) : result = .error e → e.isPermanent = false → r.requeues k = q.requeues k + 1
  retried (e : Error) : result = .error e → e.isPermanent = false → r.shuttingDown = false →
    r.dirty.contains k = true ∨ ∃ delay, q.IsBackoff (q.requeues k + 1) delay ∧ ⟨k, delay⟩ ∈ r.timers
  forgotten : (∀ e, result = .error e → e.isPermanent = true) → r.requeues k = 0 ∧ r.timers = q.timers

/-- What is owed depends on the failures and the timers before the turn, not on the marks. -/
theorem turnKept_frame {waiting dirty processing : List Key} {result : Except Error Unit}
    {answer : Except Error Bool} :
    TurnKept { q with waiting, dirty, processing } k result answer r ↔ TurnKept q k result answer r :=
  ⟨fun h => ⟨h.answered, h.released, h.counted, h.retried, h.forgotten⟩,
    fun h => ⟨h.answered, h.released, h.counted, h.retried, h.forgotten⟩⟩

/-- The end of a turn: its key is forgotten or added again, and given back. -/
def finish (q : Queue) (k : Key) (result : Except Error Unit) : Except Error Bool × Queue :=
  let (settled, q) := q.settle k result
  (settled.map fun _ => true, q.done k)

@[simp] theorem requeues_done (q : Queue) (k k' : Key) : (q.done k).requeues k' = q.requeues k' := by
  rw [done_eq]
  rfl

theorem released_done (q : Queue) (k : Key) : (q.done k).processing.contains k = false := by
  rw [done_eq]
  show (unmark k q.processing).contains k = false
  rw [contains_unmark, BEq.rfl]
  rfl

section

variable {result : Except Error Unit} {e : Error}

theorem finish_forgotten (q : Queue) (k : Key) (h : ∀ e, result = .error e → e.isPermanent = true) :
    finish q k result = (.ok true, (q.forget k).done k) := by
  cases result with
  | ok => rfl
  | error e =>
    unfold finish settle
    dsimp only
    rw [if_pos (h e rfl)]
    rfl

theorem finish_error (q : Queue) (k : Key) (h : e.isPermanent = false) :
    finish q k (.error e) = ((q.addRateLimited k).1.map fun _ => true, (q.addRateLimited k).2.done k) := by
  unfold finish settle
  dsimp only
  rw [h, if_neg Bool.false_ne_true]

/-- After 1024 failures one more is counted, and nothing else becomes of the key. -/
theorem finish_overflow (h : 1024 ≤ q.requeues k) (he : e.isPermanent = false) :
    finish q k (.error e) = (Mismatch.largeInteger.error, (q.fail k).2.done k) := by
  rw [finish_error q k he, addRateLimited_error h]
  rfl

/-- The end of a turn keeps what it owes, in any state of the queue, unless the key has failed for
now 1024 times before. -/
theorem finish_kept_iff : TurnKept q k result (finish q k result).1 (finish q k result).2 ↔
    ∀ e, result = .error e → e.isPermanent = false → q.requeues k < 1024 := by
  constructor
  · rintro hkept e rfl he
    by_contra hge
    have hanswered := hkept.answered
    rw [finish_overflow (by omega) he] at hanswered
    cases hanswered
  · intro hfew
    by_cases hforgotten : ∀ e, result = .error e → e.isPermanent = true
    · rw [finish_forgotten q k hforgotten]
      refine ⟨rfl, released_done _ k, fun e he hfor => ?_, fun e he hfor => ?_, fun _ => ⟨?_, ?_⟩⟩
      · exact absurd (hforgotten e he) (by simp [hfor])
      · exact absurd (hforgotten e he) (by simp [hfor])
      · rw [requeues_done, requeues_forget]
      · rw [done_eq]
        rfl
    · simp only [not_forall] at hforgotten
      obtain ⟨e, rfl, he⟩ := hforgotten
      have he : e.isPermanent = false := by simpa using he
      obtain ⟨delay, hbackoff, hadded⟩ := addRateLimited_ok (hfew e rfl he)
      rw [finish_error q k he, hadded]
      refine ⟨rfl, released_done _ k, fun _ _ _ => ?_, fun _ _ _ hopen => ?_, fun hall => ?_⟩
      · obtain ⟨waiting, dirty, timers, hframe⟩ := addAfter_frame (q.fail k).2 k delay
        rw [requeues_done, hframe]
        exact requeues_fail q k
      · rw [done_eq] at hopen ⊢
        have hshut : (q.fail k).2.shuttingDown = false := (addAfter_shuttingDown _ k delay).symm.trans hopen
        rcases addAfter_pending delay hshut with hdirty | htimer
        · exact .inl hdirty
        · exact .inr ⟨delay, hbackoff, htimer⟩
      · exact absurd (hall e rfl) (by simp [he])

/-- A turn starts with its key handed out, and ends after the key was processed and other keys came in. -/
theorem workOnce_eq (process : Handler σ) (s : σ) (hget : q.get = (some k, r)) (hk : k ≠ .null) :
    workOnce process q s =
      ((finish (r.addAll (process k s).1.1) k (process k s).1.2).1,
        (finish (r.addAll (process k s).1.1) k (process k s).1.2).2, (process k s).2) := by
  unfold workOnce
  rw [hget]
  cases k with
  | null => exact absurd rfl hk
  | bool | number | text => rfl

/-- While a key is processed only the marks change. -/
theorem processed_frame (hget : q.get = (some k, r)) (added : List Key) :
    ∃ waiting dirty processing, r.addAll added = { q with waiting, dirty, processing } := by
  obtain ⟨waiting, dirty, processing, hr⟩ := get_frame q
  rw [hget] at hr
  obtain ⟨waiting', dirty', hall⟩ := addAll_frame r added
  refine ⟨waiting', dirty', processing, ?_⟩
  rw [hall, show r = _ from hr]

/-- A turn keeps what it owes to its key, whatever processing does, unless the key fails for
now after 1024 failures. -/
theorem workOnce_kept_iff (process : Handler σ) (s : σ) (hget : q.get = (some k, r)) (hk : k ≠ .null) :
    TurnKept q k (process k s).1.2 (workOnce process q s).1 (workOnce process q s).2.1 ↔
      ∀ e, (process k s).1.2 = .error e → e.isPermanent = false → q.requeues k < 1024 := by
  obtain ⟨waiting, dirty, processing, hframe⟩ := processed_frame hget (process k s).1.1
  have hrequeues : (r.addAll (process k s).1.1).requeues k = q.requeues k := by
    rw [hframe]
    rfl
  have hturn : ∀ answer t, TurnKept (r.addAll (process k s).1.1) k (process k s).1.2 answer t ↔
      TurnKept q k (process k s).1.2 answer t := by
    intro answer t
    rw [hframe]
    exact turnKept_frame
  rw [workOnce_eq process s hget hk, ← hrequeues]
  exact (hturn _ _).symm.trans finish_kept_iff

/-- Processing that fails for now. -/
def failing : Handler Unit := fun _ s => (([], .error (.failure false "temporary")), s)

/-- The first failure of a key. -/
theorem first_failure_kept :
    TurnKept (Queue.add {} (.text "a/web")) (.text "a/web") (.error (.failure false "temporary"))
      (workOnce failing (Queue.add {} (.text "a/web")) ()).1
        (workOnce failing (Queue.add {} (.text "a/web")) ()).2.1 := by
  have hget : (Queue.add {} (.text "a/web")).get =
      (some (.text "a/web"), { processing := [.text "a/web"] }) := rfl
  have hnew : (Queue.add {} (.text "a/web")).requeues (.text "a/web") < 1024 := by decide
  exact (workOnce_kept_iff failing () hget (by simp)).2 fun _ _ _ => hnew

/-! ## Failing again and again -/

theorem run_fail (k : Key) (n : Nat) (s : Session) : ∃ failures,
    Run s (List.replicate n (.fail k)) (s.on fun q => { q with failures }) ∧
      ({ s.queue with failures } : Queue).requeues k = s.queue.requeues k + n := by
  induction n generalizing s with
  | zero => exact ⟨s.queue.failures, .nil s, rfl⟩
  | succ n ih =>
    obtain ⟨failures, hrun, hcount⟩ := ih (s.on fun q => (q.fail k).2)
    refine ⟨failures, .cons (.fail s k) hrun, ?_⟩
    have hfail : (s.on fun q => (q.fail k).2).queue.requeues k = s.queue.requeues k + 1 :=
      requeues_fail s.queue k
    rw [hfail] at hcount
    refine Eq.trans ?_ (hcount.trans (by omega))
    rfl

theorem workOnce_overflow (process : Handler σ) (s : σ) (hget : q.get = (some k, r)) (hk : k ≠ .null)
    (h : 1024 ≤ q.requeues k) (hfail : (process k s).1.2 = .error e) (he : e.isPermanent = false) :
    (workOnce process q s).1 = Mismatch.largeInteger.error := by
  obtain ⟨waiting, dirty, processing, hframe⟩ := processed_frame hget (process k s).1.1
  have hafter : 1024 ≤ (r.addAll (process k s).1.1).requeues k := by
    rw [hframe]
    exact h
  rw [workOnce_eq process s hget hk, hfail]
  exact congrArg Prod.fst (finish_overflow hafter he)

/-- After 1024 failures of a key, a turn that fails for now breaks off and leaves the key out. -/
theorem reachable_turn_not_kept :
    ¬ ∀ (baseDelay maxDelay : Float) (es : List Event) (s : Session) (k : Key) (r : Queue)
      (process : Handler Unit),
      0 < baseDelay → 0 < maxDelay → Run (.start baseDelay maxDelay) es s →
      s.queue.get = (some k, r) → k ≠ .null →
      TurnKept s.queue k (process k ()).1.2 (workOnce process s.queue ()).1
        (workOnce process s.queue ()).2.1 := by
  intro hall
  obtain ⟨failures, hrun, hcount⟩ := run_fail (.text "a/web") 1024 (.start 1 300)
  have hadded := hrun.append (.cons (.add _ (.text "a/web")) (.nil _))
  have hkept := hall 1 300 _ _ (.text "a/web") _ failing (by decide) (by decide) hadded rfl (by simp)
  cases hkept.answered.symm.trans
    (workOnce_overflow failing () rfl (by simp) (Nat.le_of_eq hcount.symm) rfl rfl)

end

end Queue

end Balancer
