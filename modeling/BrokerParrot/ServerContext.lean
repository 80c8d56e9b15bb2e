import BrokerParrot.Docker
import BrokerParrot.WorkerControl

/-!
# The window a server container is configured for, and the change that moves it

Neither server can change its window while it runs, so a change replaces the container: the same
image, environment and networks, with one value swapped. The first override remembers in a label
what the operator had configured.
-/

namespace BrokerParrot

structure LeverText where
  python : PyText
  fixed : ℚ → String
  general : ℚ → String
  repr : PyValue → String

def contextEnv : String := "OLLAMA_CONTEXT_LENGTH"

def contextFlag : String := "--max-model-len"

def defaultLabel : String := "queue_workflows.llm_context.default"

def utilizationFlag : String := "--gpu-memory-utilization"

def utilizationLabel : String := "queue_workflows.llm_context.utilization"

def maxSeqsFlag : String := "--max-num-seqs"

def maxSeqsLabel : String := "queue_workflows.llm_context.max_num_seqs"

variable (text : PyText) (inspected : Container)

def intOrNone (raw : String) : Option ℤ := (text.int raw).filter (0 < ·)

/-! ### Reading the container -/

def partitionSign (text : String) : String × Option String :=
  let name := text.toList.takeWhile (· ≠ '=')
  let rest := text.toList.dropWhile (· ≠ '=')
  (String.ofList name, if rest = [] then none else some (String.ofList rest.tail))

def envContext (text : PyText) : List String → Option ℤ
  | [] => none
  | item :: rest =>
    match partitionSign item with
    | (name, some value) =>
      if name = contextEnv then intOrNone text value else envContext text rest
    | (_, none) => envContext text rest

def assignedValue (flag token : String) : Option String :=
  if (flag.toList ++ ['=']).isPrefixOf token.toList then
    some (String.ofList (token.toList.drop (flag.toList.length + 1)))
  else
    none

/-- The value of a flag in either form. A bare flag at the end has none. -/
def argvFlag (flag : String) : List String → Option String
  | [] => none
  | [token] => assignedValue flag token
  | token :: next :: rest =>
    if token = flag then
      some next
    else
      match assignedValue flag token with
      | some value => some value
      | none => argvFlag flag (next :: rest)

def argvContext (argv : List String) : Option ℤ := (argvFlag contextFlag argv).bind (intOrNone text)

def argvMaxSeqs (argv : List String) : Option ℤ := (argvFlag maxSeqsFlag argv).bind (intOrNone text)

def argvUtilization (argv : List String) : Option ℚ :=
  match (argvFlag utilizationFlag argv).bind text.float with
  | some (.finite value) => if 0 < value ∧ value ≤ 1 then some value else none
  | _ => none

def configuredContext : ServerKind → Option ℤ
  | .vllm => argvContext text inspected.config.cmd
  | .ollama => envContext text inspected.config.env

def recordedDefault : Option String := inspected.config.labels.get? defaultLabel

/-! ### Writing the container -/

def envWithContext (env : List String) (value : Option String) : List String :=
  env.filter (fun item => (partitionSign item).1 ≠ contextEnv) ++
    (value.map fun value => contextEnv ++ "=" ++ value).toList

/-- The tokens with the flag rewritten wherever it stands, or left out, and whether it was
rewritten. -/
def rewriteFlag (flag : String) (value : Option String) : List String → List String × Bool
  | [] => ([], false)
  | [token] =>
    match assignedValue flag token, value with
    | some _, some value => ([flag ++ "=" ++ value], true)
    | some _, none => ([], false)
    | none, _ => ([token], false)
  | token :: next :: rest =>
    if token = flag then
      let tail := rewriteFlag flag value rest
      match value with
      | some value => (flag :: value :: tail.1, true)
      | none => tail
    else
      let tail := rewriteFlag flag value (next :: rest)
      match assignedValue flag token, value with
      | some _, some value => ((flag ++ "=" ++ value) :: tail.1, true)
      | some _, none => tail
      | none, _ => (token :: tail.1, tail.2)

def argvWithFlag (argv : List String) (flag : String) (value : Option String) : List String :=
  let rewritten := rewriteFlag flag value argv
  match value with
  | some value => if rewritten.2 then rewritten.1 else rewritten.1 ++ [flag, value]
  | none => rewritten.1

def argvWithContext (argv : List String) (value : Option String) : List String :=
  argvWithFlag argv contextFlag value

def argvWithUtilization (argv : List String) (value : Option String) : List String :=
  argvWithFlag argv utilizationFlag value

def argvWithMaxSeqs (argv : List String) (value : Option String) : List String :=
  argvWithFlag argv maxSeqsFlag value

def engineFlags : List String := [contextFlag, utilizationFlag, maxSeqsFlag]

/-- The tokens without the flags and their values. A bare flag takes the token after it along,
whatever that is. -/
def keptTokens (flags : List String) : List String → List String
  | [] => []
  | [token] =>
    if token ∈ flags ∨ flags.any fun flag => (assignedValue flag token).isSome then
      []
    else
      [token]
  | token :: next :: rest =>
    if token ∈ flags then
      keptTokens flags rest
    else if flags.any fun flag => (assignedValue flag token).isSome then
      keptTokens flags (next :: rest)
    else
      token :: keptTokens flags (next :: rest)

def argvFingerprint (sha1 : String → String) (argv : List String) : String :=
  ((sha1 (" ".intercalate (keptTokens engineFlags argv))).take 16).toString

/-- The alias that the daemon gave the old container on its own: the start of its id. -/
def idAlias : String := (inspected.id.take 12).toString

/-- An endpoint as the replacement gets it. An id that is missing drops no alias. -/
def keptEndpoint (endpoint : Endpoint) : Endpoint :=
  { endpoint with
    aliases := endpoint.aliases.filter fun name =>
      idAlias inspected = "" ∨ name ≠ idAlias inspected }

def exclusiveMode (mode : String) : Bool :=
  mode = "host" ∨ mode = "none" ∨ sharesContainer mode

def networking : Option (String × Endpoint) × List (String × Endpoint) :=
  let mode := inspected.hostConfig.networkMode
  if exclusiveMode mode then
    (none, [])
  else
    match inspected.networks.entries with
    | [] => (none, [])
    | (head, _) :: _ =>
      let first := if (inspected.networks.get? mode).isSome then mode else head
      (some (first, keptEndpoint inspected ((inspected.networks.get? first).getD {})),
        (inspected.networks.entries.filter fun entry => entry.1 ≠ first).map fun entry =>
          (entry.1, keptEndpoint inspected entry.2))

def recreatePayload (argv env : Option (List String)) (labels : Option (OrdDict String String)) :
    CreateBody where
  config :=
    { inspected.config with
      cmd := argv.getD inspected.config.cmd
      env := env.getD inspected.config.env
      labels := labels.getD inspected.config.labels }
  hostConfig := inspected.hostConfig
  endpoint := (networking inspected).1

/-! ### The plan -/

/-- What is asked of a server: its window, or the operator's own for none, and for vLLM its memory
pool and its concurrency. -/
structure WindowRequest where
  contextLength : Option ℤ
  utilization : Option ℚ := none
  maxNumSeqs : Option ℤ := none

structure ContextPlan where
  payload : CreateBody
  connect : List (String × Endpoint)
  previous : Option ℤ
  target : Option ℤ

def remember (labels : OrdDict String String) (label : String) (before : Option String) :
    OrdDict String String :=
  if (labels.get? label).isSome then labels else labels.insert label (before.getD "")

def windowTarget (kind : ServerKind) (request : WindowRequest) : Option ℤ :=
  match request.contextLength, recordedDefault inspected with
  | some tokens, _ => some tokens
  | none, some recorded => intOrNone text recorded
  | none, none => configuredContext text inspected kind

def poolChange (kind : ServerKind) (request : WindowRequest) : Option ℚ :=
  match kind, request.utilization, argvUtilization text inspected.config.cmd with
  | .vllm, some wanted, none => some wanted
  | .vllm, some wanted, some now => if 5 / 1000 ≤ |now - wanted| then some wanted else none
  | _, _, _ => none

def seqsChange (kind : ServerKind) (request : WindowRequest) : Option ℤ :=
  match kind, request.maxNumSeqs with
  | .vllm, some wanted =>
    if argvMaxSeqs text inspected.config.cmd = some wanted then none else some wanted
  | _, _ => none

def planLabels (text : LeverText) (inspected : Container) (kind : ServerKind)
    (request : WindowRequest) : OrdDict String String :=
  let current := configuredContext text.python inspected kind
  let cmd := inspected.config.cmd
  let labels := inspected.config.labels
  let labels :=
    if windowTarget text.python inspected kind request = current then
      labels
    else if request.contextLength.isNone then
      labels.erase defaultLabel
    else
      remember labels defaultLabel (current.map toString)
  let labels :=
    if (poolChange text.python inspected kind request).isSome then
      remember labels utilizationLabel ((argvUtilization text.python cmd).map text.general)
    else
      labels
  if (seqsChange text.python inspected kind request).isSome then
    remember labels maxSeqsLabel ((argvMaxSeqs text.python cmd).map toString)
  else
    labels

def planArgv (text : LeverText) (inspected : Container) (request : WindowRequest) : List String :=
  let target := windowTarget text.python inspected .vllm request
  let argv := inspected.config.cmd
  let argv :=
    if target = configuredContext text.python inspected .vllm then
      argv
    else
      argvWithContext argv (target.map toString)
  let argv :=
    match poolChange text.python inspected .vllm request with
    | some wanted => argvWithUtilization argv (some (text.fixed wanted))
    | none => argv
  match seqsChange text.python inspected .vllm request with
  | some wanted => argvWithMaxSeqs argv (some (toString wanted))
  | none => argv

def planContext (text : LeverText) (inspected : Container) (kind : ServerKind)
    (request : WindowRequest) : Option ContextPlan :=
  let current := configuredContext text.python inspected kind
  let target := windowTarget text.python inspected kind request
  if target = current ∧ poolChange text.python inspected kind request = none ∧
      seqsChange text.python inspected kind request = none then
    none
  else
    let labels := planLabels text inspected kind request
    let payload :=
      match kind with
      | .vllm => recreatePayload inspected (some (planArgv text inspected request)) none labels
      | .ollama =>
        recreatePayload inspected none
          (some (envWithContext inspected.config.env (target.map toString))) labels
    some ⟨payload, (networking inspected).2, current, target⟩

end BrokerParrot
