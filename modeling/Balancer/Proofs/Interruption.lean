import Balancer.Proofs.Cloud.Stop
import Balancer.Proofs.Converge.Deletion
import Balancer.Proofs.Converge.Strict

/-!
# Interruption

`service_survivesStop` : a reconcile or a delete of a Service that the operator stops before any of its
requests does no harm. It ends with the error of the context, it has recorded what an undisturbed run records
before that request, and done again it ends as the undisturbed run does, in the same resources. Nothing is
rolled back; every state in between is one from which the steps that are left lead to the same end.
-/

namespace Balancer

set_option autoImplicit false

namespace Converge

/-- Stopped before any request, a reconcile of a Service can be done again, and so can a delete. -/
theorem service_survivesStop (i : Inputs) (service key : Value) {m : Memory} (hs : m.resources.WellFormed) :
    (TextSubnets m.resources → DistinctNames i service → (convergeService i service).SurvivesStop m) ∧
      (deleteService i key).SurvivesStop m := by
  constructor
  · intro htext hd
    exact Program.survivesStop_of_resumes (strict_convergeService i service)
      (resumes_convergeService hs htext hd)
  · exact Program.survivesStop_of_resumes (strict_deleteService i key) (resumes_deleteService hs)

/-- The sample Service is reconciled in more than five requests; stopped before the sixth of them
it can be done again. -/
theorem sample_survivesStop : ∃ lb m cut,
    (convergeService sampleInputs sampleService).run (Memory.cloud Gate.free)
      ((), ⟨{}, []⟩) = (.ok lb, ((), m)) ∧
      (convergeService sampleInputs sampleService).memoryAt 5 ⟨{}, []⟩ = some cut ∧
      cut.records <+: m.records ∧
        ∃ m', (convergeService sampleInputs sampleService).run (Memory.cloud Gate.free) ((), cut) =
          (.ok lb, ((), m')) ∧
          m'.resources = m.resources := by
  obtain ⟨lb, m, h⟩ := sample_succeeds
  have hcut : ((convergeService sampleInputs sampleService).memoryAt 5 ⟨{}, []⟩).isSome = true := by
    set_option maxRecDepth 100000 in decide +kernel
  obtain ⟨cut, hcut⟩ := Option.isSome_iff_exists.1 hcut
  obtain ⟨hsurvives, -⟩ :=
    service_survivesStop sampleInputs sampleService (.text "default/web") (m := ⟨{}, []⟩)
    Resources.wellFormed_empty
  obtain ⟨-, hrecords, hagain⟩ :=
    hsurvives (fun _ hv => (List.not_mem_nil hv).elim) sample_distinctNames lb m h 5 cut hcut
  exact ⟨lb, m, cut, h, hcut, hrecords, hagain⟩

end Converge

end Balancer
