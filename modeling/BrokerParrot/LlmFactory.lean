import BrokerParrot.WorkerControl

/-!
# The server of a claimed job

`llm_backends/factory.py`: which of the two LLM servers of a box a running job is sent to. The claim
has stamped a kind on the row. The job is sent there if that server answers; otherwise the row's
preferences, the servers that answer and the default of the box decide, and the row is stamped again
when the kind is another one.

A backend is kept with its kind and its settings; which instance a process hands out again is left
out.
-/

namespace BrokerParrot

structure Backend where
  serverType : ServerKind
  parallelism : ℤ
  idleTtlS : ℤ

def builtKind (name : String) : ServerKind := if name = "vllm" then .vllm else .ollama

def getBackend (controls : WorkerControls) (worker : WorkerKey) (serverType : Option String) :
    Backend :=
  let config := controls.llmConfigFor worker
  let kind := builtKind ((orNull serverType).getD config.serverType.text)
  { serverType := kind
    parallelism := config.parallelism
    idleTtlS := if kind = .vllm then config.vllmIdleTtlS else 0 }

/-! ### The choice among the preferences -/

def coldStartKinds : List String := ["vllm"]

def firstWorthStarting (hot : List String) (pending minQueue : ℤ) : List String → Option String
  | [] => none
  | kind :: rest =>
    if 0 < minQueue ∧ kind ∈ coldStartKinds ∧ kind ∉ hot ∧ pending < minQueue ∧ rest ≠ [] then
      firstWorthStarting hot pending minQueue rest
    else
      some kind

def chooseServerType (preference available warm : List String) (pending minQueue : ℤ) :
    Option String :=
  let prefs := nonBlank preference
  let offered := nonBlank available
  -- A box that advertises nothing is not asked: the first preference stands.
  if offered = [] then
    prefs.head?
  else
    firstWorthStarting (nonBlank warm) pending minQueue (prefs.filter (· ∈ offered))

/-! ### The probe -/

def probeTtlS : ℚ := 5

def probeGraceS : ℚ := 15

/-- The last answer of each server with its time, and when it last answered. Other names never
answer and are not remembered. -/
structure ProbeCache where
  seen : ServerKind → Option (ℚ × Bool) := fun _ => none
  lastAlive : ServerKind → Option ℚ := fun _ => none

structure Sighting where
  answers : ServerKind → Bool
  now : ℚ

namespace ProbeCache

def alive (cache : ProbeCache) (sight : Sighting) (kind : ServerKind) : Bool :=
  sight.answers kind ||
    (cache.lastAlive kind).any fun answered => sight.now - answered < probeGraceS

def look (cache : ProbeCache) (sight : Sighting) (kind : ServerKind) : ProbeCache × Bool :=
  match (cache.seen kind).filter fun hit => sight.now - hit.1 < probeTtlS with
  | some hit => (cache, hit.2)
  | none =>
    ({ seen := Function.update cache.seen kind (some (sight.now, cache.alive sight kind))
       lastAlive :=
        if sight.answers kind then Function.update cache.lastAlive kind (some sight.now)
        else cache.lastAlive },
      cache.alive sight kind)

def probeAvailable (sight : Sighting) : List String → ProbeCache → ProbeCache × List String
  | [], cache => (cache, [])
  | name :: rest, cache =>
    match ServerKind.ofText name with
    | none => probeAvailable sight rest cache
    | some kind =>
      let looked := cache.look sight kind
      let others := probeAvailable sight rest looked.1
      (others.1, if looked.2 then name :: others.2 else others.2)

end ProbeCache

/-! ### The server of a job -/

/-- What a call meets: two looks at the servers, the models the batching server holds, the rows that
wait for it, the queue length worth its start, and the box default. -/
structure ResolveEnv where
  cache : ProbeCache := {}
  first : Sighting
  second : Sighting
  servedModels : Option (List String) := none
  pendingRows : Option ℤ := none
  minQueue : ℤ := 5
  cachedDefault : Option ServerKind := none
  writeOk : Bool := true

/-- Read only when the batching server is one of several preferences. -/
def ResolveEnv.amortisation (env : ResolveEnv) (prefs : List String) (model : Option String) :
    List String × ℤ × ℤ :=
  if prefs.length ≤ 1 ∨ ∀ kind ∈ prefs, kind ∉ coldStartKinds then
    ([], 0, 0)
  else if env.minQueue ≤ 0 then
    ([], 0, env.minQueue)
  else
    let served := env.servedModels.getD []
    let warm := match orNull model with
      | some model => decide (model ∈ served)
      | none => decide (served ≠ [])
    if warm then (coldStartKinds, 0, env.minQueue)
    else ([], max 0 (env.pendingRows.getD 0), env.minQueue)

structure Resolution where
  backend : Backend
  db : Db
  cache : ProbeCache

section

variable (env : ResolveEnv) (controls : WorkerControls) (worker : WorkerKey)

/-- `_serve`: correct the stamp when it names another kind. No kind leaves it alone. -/
def serve (job : Option (JobId × NodeJob)) (kind : Option String) (cache : ProbeCache) (db : Db) :
    Resolution where
  backend := getBackend controls worker kind
  cache := cache
  db :=
    match job, orNull kind, job.bind fun entry => orNull entry.2.resolvedServer with
    | some (id, _), some kind, some stamped =>
      if kind ≠ stamped ∧ env.writeOk = true then restampResolvedServer id kind db else db
    | _, _, _ => db

def cachedDefaultKind : ServerKind :=
  env.cachedDefault.getD (controls.llmConfigFor worker).serverType

def availableServers (prefs : List String) (available : Option (List ServerKind))
    (cache : ProbeCache) : ProbeCache × List String :=
  match available with
  | some kinds => (cache, kinds.map ServerKind.text)
  | none =>
    cache.probeAvailable env.second (prefs ++ ["ollama", "vllm"]).eraseDups

def resolveForJob (job : Option (JobId × NodeJob)) (available : Option (List ServerKind))
    (db : Db) : Resolution :=
  let prefs := nonBlank ((job.bind fun entry => entry.2.serverTypes).getD [])
  let stamped := job.bind fun entry => orNull entry.2.resolvedServer
  let looked := env.cache.probeAvailable env.first stamped.toList
  if looked.2 ≠ [] then
    serve env controls worker job stamped looked.1 db
  else if prefs = [] then
    let live := looked.1.probeAvailable env.second ["ollama", "vllm"]
    let default := (cachedDefaultKind env controls worker).text
    -- The server that holds its weights wins; a default that is down gives way to one that is up.
    if "vllm" ∈ live.2 then
      serve env controls worker job (some "vllm") live.1 db
    else if default ∈ live.2 ∨ live.2 = [] then
      serve env controls worker job (some default) live.1 db
    else
      serve env controls worker job live.2.head? live.1 db
  else
    let offered := availableServers env prefs available looked.1
    let inputs := env.amortisation prefs (job.bind fun entry => entry.2.requiredModel)
    serve env controls worker job
      (chooseServerType prefs offered.2 inputs.1 inputs.2.1 inputs.2.2) offered.1 db

end

end BrokerParrot
