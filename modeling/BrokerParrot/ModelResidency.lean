import Mathlib.Data.Prod.Lex
import BrokerParrot.NodeQueue
import BrokerParrot.Lib.TopRank
import BrokerParrot.Lib.TimeText

/-!
# One model per box

`decide_evictions` picks the resident models that must go so that at most `cap` copies stay, and the
enforcer pulls the lever of each server that holds one of them. A copy is a model on a server: two
servers with the same model hold two copies.
-/

namespace BrokerParrot

namespace ModelResidency

def ollama : String := "ollama"

def vllm : String := "vllm"

def comfyui : String := "comfyui"

structure Resident where
  server : String
  model : String
  mru : ℚ := 0
  busy : Bool := false
  deriving DecidableEq, Repr

abbrev Copy := String × String

def Resident.copy (resident : Resident) : Copy := (resident.server, resident.model)

/-! ### The decision -/

section

variable (cap : ℕ) (desiredServer protectedServer : Option String) (residents : List Resident)

def copies : List Copy := (residents.map Resident.copy).eraseDups

def rowsOf (copy : Copy) : List Resident := residents.filter fun resident => resident.copy = copy

def dupModels : List String :=
  ((copies residents).filter fun copy => copy.1 = ollama ∧ (vllm, copy.2) ∈ copies residents).map
    Prod.snd

def dupOnOllama (resident : Resident) : Bool :=
  resident.server = ollama ∧ resident.model ∈ dupModels residents

abbrev Rank := Bool ×ₗ Bool ×ₗ Bool ×ₗ ℚ

def rank (copy : Copy) : Rank :=
  let rows := rowsOf residents copy
  toLex (decide (orNull protectedServer = some copy.1),
    toLex (rows.any Resident.busy,
      toLex (decide (orNull desiredServer = some copy.1),
        (rows.map Resident.mru).max?.getD 0)))

def keep : List Copy :=
  TopRank.top (rank desiredServer protectedServer residents) cap (copies residents)

def decideWithin : ℕ → List Resident → List Resident
  | 0, _ => []
  | calls + 1, residents =>
    if (copies residents).length ≤ cap then
      []
    else if dupModels residents ≠ [] ∧ protectedServer ≠ some ollama then
      residents.filter (dupOnOllama residents) ++
        decideWithin calls (residents.filter fun resident => !dupOnOllama residents resident)
    else
      residents.filter fun resident =>
        resident.copy ∉ keep cap desiredServer protectedServer residents

def decideEvictions : List Resident :=
  decideWithin cap desiredServer protectedServer (residents.length + 1) residents

end

/-! ### The enforcer -/

abbrev Box := List Resident

/-- What the injected levers do to the box, whether or not they raise afterwards. -/
structure Levers where
  unloadOllama : List String → Box → Box
  stopVllm : Box → Box
  freeComfyui : Box → Box

structure Enforcer where
  label : String
  cap : ℕ
  desiredServer : Except PyError (Option String) := .ok none
  protectedServer : Except PyError (Option String) := .ok none
  levers : Levers

def sortedSet (texts : List String) : List String := texts.dedup.insertionSort (· ≤ ·)

def commas (texts : List String) : String := ", ".intercalate texts

structure ResidencyViolation where
  message : String

variable (enforcer : Enforcer)

def violation (residents evict : List Resident) : ResidencyViolation where
  message :=
    let models := (residents.map Resident.model).dedup
    let evicted := (evict.map Resident.model).dedup
    let kept := sortedSet (models.filter (· ∉ evicted))
    "MODEL RESIDENCY VIOLATION on " ++ enforcer.label ++ ": " ++ toString models.length ++
      " models resident (" ++
      commas (sortedSet (residents.map fun resident =>
        resident.model ++ "[" ++ resident.server ++ "]")) ++
      ") exceeds cap " ++ toString enforcer.cap ++ " — hard-killed " ++
      commas (sortedSet evicted) ++ "; kept " ++ commas kept ++
      ". A box must serve ONE model; find who loaded the extra."

def Enforcer.evictions (residents : List Resident) : List Resident :=
  decideEvictions enforcer.cap enforcer.desiredServer.toOption.join
    enforcer.protectedServer.toOption.join residents

def Levers.pull (levers : Levers) (evict : List Resident) (box : Box) : Box :=
  let models := sortedSet ((evict.filter (·.server = ollama)).map Resident.model)
  let box := if models = [] then box else levers.unloadOllama models box
  let box := if evict.any (·.server = vllm) then levers.stopVllm box else box
  if evict.any (·.server = comfyui) then levers.freeComfyui box else box

def enforceOnce (collected : Except PyError (List Resident)) (box : Box) :
    Except ResidencyViolation (List Resident) × Box :=
  match collected with
  | .error _ => (.ok [], box)
  | .ok residents =>
    let evict := enforcer.evictions residents
    if evict = [] then
      (.ok [], box)
    else
      (.error (violation enforcer residents evict), enforcer.levers.pull evict box)

/-! ### The gates before a load -/

def inprocess : String := "inprocess"

def latestSuffix : List Char := ":latest".toList

def canonicalTag (modelId : String) : String :=
  let tag := PyString.strip modelId.toList
  String.ofList
    (if latestSuffix.isSuffixOf tag then tag.take (tag.length - latestSuffix.length) else tag)

structure ModelAlreadyLoadedError where
  message : String
  deriving DecidableEq

def holdings (residents : List Resident) : String :=
  commas (sortedSet (residents.map fun resident => resident.model ++ "[" ++ resident.server ++ "]"))

/-- The last gate before a load. The text of a quoted name is the language's. -/
def assertCanLoad (repr : String → String) (label modelId : String) (residents : List Resident) :
    Except ModelAlreadyLoadedError Unit :=
  let foreign := residents.filter fun resident =>
    canonicalTag resident.model ≠ canonicalTag modelId
  if foreign = [] then
    .ok ()
  else
    .error ⟨"MODEL LOAD BLOCKED on " ++ label ++ ": refusing to load " ++ repr modelId ++
      " — the box already holds " ++ holdings foreign ++
      ". One model per box: unload it first, or route this job to the box that already holds " ++
      repr modelId ++ " (warm-model affinity). " ++
      "This is the last-defence gate; a second resident model was about to form."⟩

structure ClearLevers extends Levers where
  unloadInprocess : Box → Box

/-- What the clearing gate is called with besides the model: the levers, and how it looks at the box
again, if it does. -/
structure ClearEnv where
  label : String := "?"
  levers : ClearLevers
  reprobe : Option (Box → Except PyError (List Resident)) := none

def foreignTo (incomingKind : String) (incomingModel : Option String) (residents : List Resident) :
    List Resident :=
  residents.filter fun resident =>
    ¬ (resident.server = incomingKind ∧ ∀ model ∈ incomingModel, resident.model = model)

def ClearLevers.clear (levers : ClearLevers) (foreign : List Resident) (box : Box) : Box :=
  let box := levers.pull foreign box
  if foreign.any (·.server = inprocess) then levers.unloadInprocess box else box

def clearBoxFor (repr : Option String → String) (env : ClearEnv) (incomingKind : String)
    (incomingModel : Option String) (residents : List Resident) (box : Box) :
    Except ModelAlreadyLoadedError (List Resident) × Box :=
  let foreign := foreignTo incomingKind incomingModel residents
  if foreign = [] then
    (.ok [], box)
  else
    let cleared := env.levers.clear foreign box
    match env.reprobe with
    | none => (.ok foreign, cleared)
    | some reprobe =>
      let fresh := (reprobe cleared).toOption.getD []
      let still := foreignTo incomingKind incomingModel fresh
      if still = [] then
        (.ok foreign, cleared)
      else
        (.error ⟨"MODEL LOAD BLOCKED on " ++ env.label ++ ": cleared the box for " ++
          repr incomingModel ++ " (" ++ incomingKind ++ ") but " ++ holdings still ++
          " is STILL resident after eviction — refusing to form a 2nd model. " ++
          "That server's evict lever did not free it."⟩, cleared)

end ModelResidency

end BrokerParrot
