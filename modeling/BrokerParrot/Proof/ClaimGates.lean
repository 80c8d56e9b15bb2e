import BrokerParrot.Proof.RowSteps

/-!
# The gates of the gpu claim

The terms of `_eligibility`, said of the row and of the worker's configuration: the kinds a box
serves, the models it knows, the window it serves and the lane a row belongs to.
-/

namespace BrokerParrot

open Tri

variable {d : Dialect} {param : List String}

namespace Dialect

theorem arraysOverlap_holds {column : Option (List String)} :
    (d.arraysOverlap column param).Holds ↔
      ∃ items, column = some items ∧ ∃ item ∈ items, item ∈ param := by
  cases d <;> cases column <;> simp [arraysOverlap, Holds]

theorem valueInParamArray_some (item : String) (param : List String) :
    valueInParamArray (some item) param = Tri.ofProp (item ∈ param) := by
  cases param <;> simp [valueInParamArray, Tri.ofProp]

theorem valueInParamArray_holds {value : Option String} :
    (valueInParamArray value param).Holds ↔ ∃ item, value = some item ∧ item ∈ param := by
  cases value with
  | none => cases param <;> simp [valueInParamArray, Holds]
  | some => simp [valueInParamArray_some]

end Dialect

def NodeJob.acceptable (row : NodeJob) : List String :=
  row.requiredModel.toList ++ row.requiredModelIds.getD []

namespace GpuClaim

variable {args : GpuClaim} {row : NodeJob}

def ServesKind (args : GpuClaim) (row : NodeJob) : Prop :=
  args.served = [] ∨ ∀ kinds, row.serverTypes = some kinds →
    ∃ kind ∈ kinds, kind ∈ args.served ∨ kind = clusterServerKind

def KnowsModel (args : GpuClaim) (row : NodeJob) : Prop :=
  args.known = [] ∨ row.requiredModel = none ∨ ∃ model ∈ row.acceptable, model ∈ args.known

def ServesWindow (args : GpuClaim) (row : NodeJob) : Prop :=
  ∀ need, row.contextLength = some need →
    ∃ serving, args.servingContext = some serving ∧ need ≤ serving

def PoolLane (args : GpuClaim) (row : NodeJob) : Prop :=
  row.serverTypes = none →
    row.requiredModel = none ∧ (args.pool = [] ∨ row.nodeModule ∈ args.pool)

def InlineLane (args : GpuClaim) (row : NodeJob) : Prop :=
  row.serverTypes = none ∧
    (row.requiredModel = none → args.pool ≠ [] ∧ row.nodeModule ∉ args.pool)

theorem servedGate_holds : (args.servedGate d row).Holds ↔ args.ServesKind row := by
  unfold servedGate ServesKind
  split_ifs with hserved
  · simp [hserved, Holds]
  · rw [holds_or, holds_or, holds_isNull, Dialect.arraysOverlap_holds,
      Dialect.arraysOverlap_holds]
    cases hkinds : row.serverTypes with
    | none => simp
    | some => simp [hserved, and_or_left, exists_or]

theorem knownGate_holds : (args.knownGate d row).Holds ↔ args.KnowsModel row := by
  unfold knownGate KnowsModel NodeJob.acceptable
  split_ifs with hknown
  · simp [hknown, Holds]
  · rw [holds_or, holds_or, holds_and, holds_isNull,
      Dialect.valueInParamArray_holds, Dialect.arraysOverlap_holds]
    cases hmodel : row.requiredModel with
    | none => simp
    | some =>
      cases hids : row.requiredModelIds with
      | none => simp [hknown]
      | some => simp [hknown, Tri.isNotNull, Holds]

theorem contextGate_holds : (args.contextGate row).Holds ↔ args.ServesWindow row := by
  unfold contextGate ServesWindow
  cases hserving : args.servingContext with
  | none =>
    cases row.contextLength <;> simp
  | some =>
    rw [holds_or, holds_isNull]
    cases row.contextLength <;> simp [Tri.compare, Holds]

theorem laneGate_pool_holds (hlane : args.requireModel = some false) :
    (args.laneGate row).Holds ↔ args.PoolLane row := by
  unfold laneGate PoolLane
  rw [hlane, Dialect.valueInParamArray_some]
  split_ifs with hpool
  · rw [holds_or, holds_isNull, holds_isNotNull]
    tauto
  · rw [holds_or, holds_and, holds_isNull, holds_isNotNull, holds_ofProp]
    tauto

theorem laneGate_inline_holds (hlane : args.requireModel = some true) :
    (args.laneGate row).Holds ↔ args.InlineLane row := by
  unfold laneGate InlineLane
  rw [hlane, Dialect.valueInParamArray_some]
  split_ifs with hpool
  · rw [holds_and, holds_not_isNotNull, holds_isNotNull]
    simp only [hpool, ne_eq, not_true_eq_false, false_and, imp_false]
  · rw [holds_and, holds_or, holds_not_isNotNull, holds_isNotNull,
      holds_not_ofProp]
    tauto

theorem eligibility_holds : (args.eligibility d row).Holds ↔
    args.ServesKind row ∧ args.KnowsModel row ∧ args.ServesWindow row ∧
      (args.laneGate row).Holds := by
  rw [eligibility, holds_all]
  simp only [List.forall_mem_cons, List.not_mem_nil, false_imp_iff, implies_true, and_true]
  rw [servedGate_holds, knownGate_holds, contextGate_holds]

end GpuClaim

end BrokerParrot
