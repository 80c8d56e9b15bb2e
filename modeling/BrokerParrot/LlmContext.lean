import Mathlib.Data.Rat.Floor
import BrokerParrot.Lib.Rounding

/-!
# The arithmetic of the context window

How large a window a box could serve, which window to switch its server to, and how to start vLLM:
the share of the memory it takes and the number of requests it accepts. Byte and token counts are
whole numbers; the source's floats are read as exact rationals.
-/

namespace BrokerParrot

namespace LlmContext

/-! ### How big a box could go -/

def contextGranule : ℤ := 1024

def floorGranule (tokens granule : ℤ) : ℤ :=
  if 0 < granule then tokens / granule * granule else tokens

def notBelow (ceiling : ℤ) (current : Option ℤ) : Option ℤ :=
  if max ceiling (current.getD 0) = 0 then current else some (max ceiling (current.getD 0))

structure OllamaBox where
  current : Option ℤ
  modelMax : Option ℤ
  perToken : Option ℤ
  weightsBytes : Option ℤ
  runnerBytes : ℤ
  availableBytes : Option ℤ
  reserveBytes : ℤ

def OllamaBox.cacheBytes (box : OllamaBox) (weights available : ℤ) : ℤ :=
  available + box.runnerBytes - box.reserveBytes - weights

def fittingWindow (modelMax : Option ℤ) (tokens granule : ℤ) : ℤ :=
  match modelMax with
  | some limit => if limit ≤ tokens then limit else floorGranule tokens granule
  | none => floorGranule tokens granule

def ollamaCeiling (box : OllamaBox) (granule : ℤ := contextGranule) : Option ℤ :=
  match box.perToken, box.weightsBytes, box.availableBytes with
  | some perToken, some weights, some available =>
    let cacheBytes := box.cacheBytes weights available
    if cacheBytes ≤ 0 ∨ perToken ≤ 0 then
      box.current
    else
      notBelow (fittingWindow box.modelMax (cacheBytes / perToken) granule) box.current
  | _, _, _ => box.current

/-! ### What to switch to -/

def reachable (needs : List (Option ℤ)) (floor ceiling : ℤ) : List ℤ :=
  needs.filterMap fun need => need.filter fun tokens => floor < tokens ∧ tokens ≤ ceiling

def ceilGranule (tokens granule : ℤ) : ℤ :=
  if 0 < granule then ⌈(tokens : ℚ) / granule⌉ * granule else tokens

def switchTarget (needs : List (Option ℤ)) (current ceiling : Option ℤ)
    (granule : ℤ := contextGranule) : Option ℤ :=
  ceiling.bind fun ceiling =>
    (reachable needs (current.getD 0) ceiling).max?.map fun largest =>
      min (ceilGranule largest granule) ceiling

/-! ### How to start vLLM -/

def defaultVllmUtilization : ℚ := 9 / 10

def roundTwo (x : ℚ) : ℚ := Rounding.roundTo (1 / 100) x

def vllmUtilization (configured : Option ℚ) (totalBytes availableBytes : Option ℕ)
    (reserveBytes : ℕ) (granule : ℚ := 1 / 100) : Option ℚ :=
  match totalBytes, availableBytes with
  | some total, some available =>
    if total = 0 then
      none
    else
      let fitted : ℚ := ((available : ℤ) - reserveBytes : ℤ) / total
      let fitted := Rounding.floorTo granule (max fitted 0)
      some (roundTwo (min (configured.getD defaultVllmUtilization) fitted))
  | _, _ => none

structure VllmProfile where
  weightsBytes : ℕ
  kvBytes : ℕ
  kvTokens : ℕ
  utilization : ℚ
  totalBytes : ℕ

namespace VllmProfile

def perTokenBytes (profile : VllmProfile) : ℚ :=
  if profile.kvTokens = 0 then 0 else profile.kvBytes / profile.kvTokens

def poolBytes (profile : VllmProfile) : ℤ :=
  Rounding.truncate (profile.utilization * profile.totalBytes)

def overheadBytes (profile : VllmProfile) : ℤ :=
  max 0 (profile.poolBytes - profile.weightsBytes - profile.kvBytes)

end VllmProfile

structure VllmPlan where
  utilization : Option ℚ
  maxNumSeqs : Option ℤ
  refusal : Option String
  reason : String

structure StartRequest where
  totalBytes : Option ℕ
  availableBytes : Option ℕ
  reserveBytes : ℕ
  operatorUtilization : Option ℚ
  operatorMaxSeqs : Option ℤ
  window : Option ℕ
  profile : Option VllmProfile
  minUtilization : ℚ

/-- The number formats of the texts: `_gb`, `:,`, `:.0%`, `:.1f` and `:.2f`. -/
structure PlanText where
  gb : ℚ → String
  grouped : ℤ → String
  percent : ℚ → String
  oneDigit : ℚ → String
  twoDigits : ℚ → String

def memoryRefusal : String := "memory: "

def vllmPlanMargin : ℚ := 1 / 20

namespace StartRequest

variable (request : StartRequest)

def opUtil : ℚ := request.operatorUtilization.getD defaultVllmUtilization

def asConfigured (reason : String) : VllmPlan := ⟨none, none, none, reason⟩

def planWithoutProfile (text : PlanText) (total available : ℕ) : VllmPlan :=
  match vllmUtilization (some request.opUtil) (some total) (some available)
      request.reserveBytes with
  | none => asConfigured "no memory readings — starting as configured"
  | some fitted =>
    if fitted < request.minUtilization then
      ⟨none, none,
        some (memoryRefusal ++ "vLLM cannot fit on this box: " ++ text.gb available ++
          " available of " ++ text.gb total ++ " with " ++ text.gb request.reserveBytes ++
          " reserved for everything else — a pool of " ++ text.twoDigits fitted ++
          " is below the " ++ text.twoDigits request.minUtilization ++
          " minimum (QUEUE_WORKFLOWS_VLLM_MIN_UTILIZATION)"),
        "no profile of this model here"⟩
    else if request.opUtil ≤ fitted + 1 / 200 then
      asConfigured "the operator's pool fits as it is (no profile)"
    else
      ⟨some fitted, none, none,
        "pool lowered to " ++ text.twoDigits fitted ++ " for what is free (no profile of this " ++
          "model here yet — this start's log becomes one)"⟩

section

variable (total available window : ℕ) (profile : VllmProfile) (granule margin : ℚ)

def cap : ℤ :=
  min ((available : ℤ) - request.reserveBytes) (Rounding.truncate (request.opUtil * total))

def fixed : ℤ := profile.weightsBytes + profile.overheadBytes

def perSeq : ℚ := window * profile.perTokenBytes

def nMax : ℤ :=
  max 1 (match request.operatorMaxSeqs with
    | none => 1
    | some seqs => if seqs = 0 then 1 else seqs)

def concurrency : ℤ :=
  max 1 (min request.nMax
    ⌊((request.cap total available) / (1 + margin) - fixed profile) / perSeq window profile⌋)

def pool : ℚ :=
  (fixed profile + request.concurrency total available window profile margin *
    perSeq window profile) * (1 + margin)

def sizedUtilization : ℚ :=
  let util := Rounding.ceilTo granule
    (request.pool total available window profile margin / total)
  let fitted := vllmUtilization (some request.opUtil) (some total) (some available)
    request.reserveBytes
  roundTwo (min (min util request.opUtil) (fitted.getD request.opUtil))

def planSized (text : PlanText) : VllmPlan :=
  let cap := request.cap total available
  let one : ℚ := (fixed profile + perSeq window profile) * (1 + margin)
  if cap < one then
    ⟨none, none,
      some (memoryRefusal ++ "vLLM cannot hold one " ++ text.grouped window ++
        "-token request on this box: weights " ++ text.gb profile.weightsBytes ++ " + overhead " ++
        text.gb profile.overheadBytes ++ " + cache " ++ text.gb (perSeq window profile) ++ " (+" ++
        text.percent margin ++ ") = " ++ text.gb one ++ ", " ++ text.gb cap ++ " usable (" ++
        text.gb available ++ " available, " ++ text.gb request.reserveBytes ++
        " reserved, operator pool " ++ text.twoDigits request.opUtil ++ " = " ++
        text.gb (request.opUtil * total) ++ ") — lower the window or free memory"),
      "one request does not fit"⟩
  else
    let n := request.concurrency total available window profile margin
    let util := request.sizedUtilization total available window profile granule margin
    let reason := "sized to need: " ++ toString n ++ " × " ++ text.grouped window ++
      " tokens × " ++ text.oneDigit (profile.perTokenBytes / 1024) ++ " KB + weights " ++
      text.gb profile.weightsBytes ++ " + overhead " ++ text.gb profile.overheadBytes ++ " (+" ++
      text.percent margin ++ ") = " ++
      text.gb (request.pool total available window profile margin) ++ " → pool " ++
      text.twoDigits util ++ " of " ++ text.gb total ++ " (" ++ text.gb cap ++ " usable)"
    let lowered := if n < request.nMax then
        "; concurrency lowered from " ++ toString request.nMax ++ " to " ++ toString n ++
          " — that is what fits"
      else ""
    ⟨some util, some n, none, reason ++ lowered⟩

end

end StartRequest

def vllmPlan (text : PlanText) (request : StartRequest) (granule : ℚ := 1 / 100)
    (margin : ℚ := vllmPlanMargin) : VllmPlan :=
  match request.totalBytes, request.availableBytes with
  | some total, some available =>
    if total = 0 then
      StartRequest.asConfigured "no memory readings — starting as configured"
    else
      match request.profile, request.window with
      | some profile, some window =>
        if 0 < profile.perTokenBytes ∧ window ≠ 0 then
          request.planSized total available window profile granule margin text
        else
          request.planWithoutProfile text total available
      | _, _ => request.planWithoutProfile text total available
  | _, _ => StartRequest.asConfigured "no memory readings — starting as configured"

end LlmContext

end BrokerParrot
