import QueryGate.Proofs.QueryFaults
import QueryGate.Proofs.ReadLimits
import QueryGate.Proofs.RequestRows

/-! Where a count without a text comes from: from the query or from the limits that a gate is configured with. -/
namespace QueryGate
open Outcome

section
variable {n : Int} (long : Numeral.isLong n = true)
include long

def Config.limits (config : Config) : List Int :=
  config.validation.limits ++ config.rowLimit.whenAbsent.toList ++ config.rowLimit.most.toList

end
end QueryGate
