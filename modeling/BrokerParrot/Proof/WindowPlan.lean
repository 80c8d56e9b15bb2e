import BrokerParrot.Proof.EngineFlags
import BrokerParrot.Proof.WindowRestore

/-!
# What a plan does and what it leaves alone

A plan for a window and a concurrency makes the container say both, so that the same request finds
nothing to do afterwards, and leaves every other token, every other entry of the environment and the
fingerprint of the command line as they were. The endpoint of its create body and the networks to be
connected are together the networks of the old container, each once, unless the container shares the
network namespace of the host or of another container: then the daemon takes none.
-/

namespace BrokerParrot

open List

variable {inspected : Container} {text : LeverText} {kind : ServerKind}

namespace ServerContext

/-! ### One number on the command line -/

section

variable {text : PyText} {flag : String} {number : ℤ} {argv : List String}

theorem isValue_toString (hpos : 0 < number) : IsValue (toString number) := by
  have hdash : ∀ flag ∈ engineFlags, '-' ∈ flag.toList := by decide
  exact ⟨fun hmem => toString_ne_flag (hdash _ hmem) hpos rfl,
    fun flag hflag => assignedValue_toString (hdash flag hflag) hpos⟩

def ensure (text : PyText) (flag : String) (number : ℤ) (argv : List String) : List String :=
  if (argvFlag flag argv).bind (intOrNone text) = some number then argv
  else argvWithFlag argv flag (some (toString number))

structure Ensured (text : PyText) (flag : String) (number : ℤ) (before after : List String) :
    Prop where
  reads : (argvFlag flag after).bind (intOrNone text) = some number
  others : ∀ other ∈ engineFlags, other ≠ flag → argvFlag other after = argvFlag other before
  kept : ∀ flags : List String, (∀ name ∈ flags, name ∈ engineFlags) → flag ∈ flags →
    keptTokens flags after = keptTokens flags before
  parts : ∃ parts, Valid parts ∧ after = assemble parts

theorem ensured_ensure (hreads : ReadsBack text) (hflag : flag ∈ engineFlags) (hpos : 0 < number)
    (hparts : ∃ parts, Valid parts ∧ argv = assemble parts) :
    Ensured text flag number argv (ensure text flag number argv) := by
  have hvalue := isValue_toString hpos
  obtain ⟨parts, hvalid, rfl⟩ := hparts
  unfold ensure
  split
  next hsame => exact ⟨hsame, fun _ _ _ => rfl, fun _ _ _ => rfl, parts, hvalid, rfl⟩
  next hother =>
    rw [write_assemble hflag hvalid hvalue]
    refine ⟨?_, ?_, ?_, _, valid_write hflag hvalid hvalue, rfl⟩
    · rw [argvFlag_write_self hflag hvalid hvalue]
      exact intOrNone_toString hreads hpos
    · exact fun other hmem hne => argvFlag_write_of_ne hflag hvalid hvalue hmem hne
    · exact fun flags hflags hmem => keptTokens_write hflags hmem hvalid hvalue

end

/-! ### The networks -/

def planNetworks (plan : ContextPlan) : List String :=
  (plan.payload.endpoint.map Prod.fst).toList ++ plan.connect.map Prod.fst

theorem perm_first_others (networks : OrdDict String Endpoint) {first : String}
    (hfirst : first ∈ networks.entries.map Prod.fst) :
    (first :: (networks.entries.filter fun entry => entry.1 ≠ first).map Prod.fst).Perm
      (networks.entries.map Prod.fst) := by
  have hothers : (networks.entries.filter fun entry => entry.1 ≠ first).map Prod.fst =
      (networks.entries.map Prod.fst).erase first := by
    rw [networks.nodupKeys.erase_eq_filter, filter_map]
    congr 2
    funext entry
    simp [bne, Bool.beq_eq_decide_eq]
  rw [hothers]
  exact (perm_cons_erase hfirst).symm

theorem networking_perm (hmode : exclusiveMode inspected.hostConfig.networkMode = false) :
    (((networking inspected).1.map Prod.fst).toList ++ (networking inspected).2.map Prod.fst).Perm
      (inspected.networks.entries.map Prod.fst) := by
  unfold networking
  rw [if_neg (Bool.eq_false_iff.mp hmode)]
  split
  next hempty =>
    rw [hempty]
    exact Perm.refl _
  next head endpoint rest hentries =>
    have hfirst : (if (inspected.networks.get? inspected.hostConfig.networkMode).isSome then
        inspected.hostConfig.networkMode else head) ∈ inspected.networks.entries.map Prod.fst := by
      split
      next hsome =>
        obtain ⟨found, hfound⟩ := Option.isSome_iff_exists.mp hsome
        exact mem_map_of_mem (OrdDict.mem_entries.mpr hfound)
      · rw [hentries]
        exact mem_cons_self
    refine Perm.trans (Perm.of_eq ?_) (perm_first_others inspected.networks hfirst)
    simp [map_map, Function.comp_def]

theorem planNetworks_eq {request : WindowRequest} {plan : ContextPlan}
    (hplan : planContext text inspected kind request = some plan) :
    planNetworks plan =
      ((networking inspected).1.map Prod.fst).toList ++ (networking inspected).2.map Prod.fst := by
  unfold planContext at hplan
  dsimp only at hplan
  split at hplan
  · exact nomatch hplan
  · cases hplan
    cases kind <;> rfl

theorem networking_exclusive (hmode : exclusiveMode inspected.hostConfig.networkMode = true) :
    networking inspected = (none, []) := by
  exact if_pos hmode

/-! ### The plan -/

def asked (kind : ServerKind) (window seqs : ℤ) : WindowRequest :=
  match kind with
  | .vllm => { contextLength := some window, maxNumSeqs := some seqs }
  | .ollama => { contextLength := some window }

/-- All but what was asked for is as before: the environment and the other tokens of a vLLM server,
and the command line and the other entries of an ollama server. -/
def RestKept (kind : ServerKind) (before after : Container) : Prop :=
  match kind with
  | .vllm =>
    after.config.env = before.config.env ∧
      keptTokens [contextFlag, maxSeqsFlag] after.config.cmd =
        keptTokens [contextFlag, maxSeqsFlag] before.config.cmd
  | .ollama =>
    after.config.cmd = before.config.cmd ∧
      after.config.env.filter (fun item => (partitionSign item).1 ≠ contextEnv) =
        before.config.env.filter fun item => (partitionSign item).1 ≠ contextEnv

/-- The container says what was asked for, the same request finds nothing to do, and the rest is as
before, with the fingerprint. -/
structure Served (text : LeverText) (sha1 : String → String) (kind : ServerKind)
    (window seqs : ℤ) (before after : Container) : Prop where
  context : configuredContext text.python after kind = some window
  concurrency : kind = .vllm → argvMaxSeqs text.python after.config.cmd = some seqs
  settled : planContext text after kind (asked kind window seqs) = none
  rest : RestKept kind before after
  fingerprint : argvFingerprint sha1 after.config.cmd = argvFingerprint sha1 before.config.cmd

section

variable {window seqs : ℤ}

theorem applied_vllm (text : LeverText) (inspected : Container) (request : WindowRequest) :
    (applied text .vllm inspected request).config.cmd = planArgv text inspected request ∧
      (applied text .vllm inspected request).config.env = inspected.config.env := by
  unfold applied planContext
  by_cases hnothing : windowTarget text.python inspected .vllm request =
      configuredContext text.python inspected .vllm ∧
        poolChange text.python inspected .vllm request = none ∧
        seqsChange text.python inspected .vllm request = none
  · rw [if_pos hnothing]
    refine ⟨?_, rfl⟩
    unfold planArgv
    dsimp only
    rw [if_pos hnothing.1, hnothing.2.1, hnothing.2.2]
  · rw [if_neg hnothing]
    exact ⟨rfl, rfl⟩

theorem planArgv_asked (hseqs : argvFlag maxSeqsFlag
      (ensure text.python contextFlag window inspected.config.cmd) =
        argvFlag maxSeqsFlag inspected.config.cmd) :
    planArgv text inspected (asked .vllm window seqs) =
      ensure text.python maxSeqsFlag seqs
        (ensure text.python contextFlag window inspected.config.cmd) := by
  have hwindow : (if windowTarget text.python inspected .vllm (asked .vllm window seqs) =
        configuredContext text.python inspected .vllm then inspected.config.cmd
      else argvWithContext inspected.config.cmd ((some window).map toString)) =
        ensure text.python contextFlag window inspected.config.cmd :=
    if_congr eq_comm rfl rfl
  have hpool : poolChange text.python inspected .vllm (asked .vllm window seqs) = none := rfl
  have hchange : seqsChange text.python inspected .vllm (asked .vllm window seqs) =
      if argvMaxSeqs text.python inspected.config.cmd = some seqs then none else some seqs := rfl
  have hread : (argvFlag maxSeqsFlag
      (ensure text.python contextFlag window inspected.config.cmd)).bind (intOrNone text.python) =
        argvMaxSeqs text.python inspected.config.cmd :=
    congrArg (·.bind (intOrNone text.python)) hseqs
  unfold planArgv
  rw [hpool, hchange]
  by_cases hsame : argvMaxSeqs text.python inspected.config.cmd = some seqs
  · rw [if_pos hsame]
    exact hwindow.trans (if_pos (hread.trans hsame)).symm
  · rw [if_neg hsame]
    refine (congrArg (argvWithMaxSeqs · (some (toString seqs))) hwindow).trans ?_
    exact (if_neg fun heq => hsame (hread.symm.trans heq)).symm

theorem planContext_eq_none {after : Container}
    (hcontext : configuredContext text.python after kind = some window)
    (hseqs : kind = .vllm → argvMaxSeqs text.python after.config.cmd = some seqs) :
    planContext text after kind (asked kind window seqs) = none := by
  unfold planContext
  refine if_pos ⟨?_, ?_, ?_⟩
  · rw [hcontext]
    cases kind <;> rfl
  · cases kind <;> rfl
  · cases kind with
    | vllm => exact if_pos (hseqs rfl)
    | ollama => rfl

theorem served_vllm (hreads : ReadsBack text.python) (sha1 : String → String)
    (hfollow : ValuesFollow inspected.config.cmd) (hwindow : 0 < window) (hseqs : 0 < seqs) :
    Served text sha1 .vllm window seqs inspected
      (applied text .vllm inspected (asked .vllm window seqs)) := by
  have hfirst := ensured_ensure hreads (by decide : contextFlag ∈ engineFlags) hwindow
    (exists_parts _ hfollow)
  have hsecond := ensured_ensure hreads (by decide : maxSeqsFlag ∈ engineFlags) hseqs hfirst.parts
  obtain ⟨hplan, henv⟩ := applied_vllm text inspected (asked .vllm window seqs)
  have hcmd := hplan.trans (planArgv_asked (hfirst.others maxSeqsFlag (by decide) (by decide)))
  have hcontext : configuredContext text.python
      (applied text .vllm inspected (asked .vllm window seqs)) .vllm = some window := by
    change argvContext _ _ = _
    unfold argvContext
    rw [hcmd, hsecond.others contextFlag (by decide) (by decide)]
    exact hfirst.reads
  have hconcurrency : argvMaxSeqs text.python
      (applied text .vllm inspected (asked .vllm window seqs)).config.cmd = some seqs := by
    rw [hcmd]
    exact hsecond.reads
  have hkept : ∀ flags : List String, (∀ name ∈ flags, name ∈ engineFlags) →
      contextFlag ∈ flags → maxSeqsFlag ∈ flags →
      keptTokens flags (applied text .vllm inspected (asked .vllm window seqs)).config.cmd =
        keptTokens flags inspected.config.cmd := by
    intro flags hflags hcontext hmax
    rw [hcmd, hsecond.kept flags hflags hmax, hfirst.kept flags hflags hcontext]
  refine ⟨hcontext, fun _ => hconcurrency, planContext_eq_none hcontext fun _ => hconcurrency,
    ⟨henv, hkept _ (by decide) (by decide) (by decide)⟩, ?_⟩
  unfold argvFingerprint
  rw [hkept engineFlags (fun _ hname => hname) (by decide) (by decide)]

theorem cmd_applied_ollama (text : LeverText) (inspected : Container) (request : WindowRequest) :
    (applied text .ollama inspected request).config.cmd = inspected.config.cmd := by
  unfold applied planContext
  by_cases hnothing : windowTarget text.python inspected .ollama request =
      configuredContext text.python inspected .ollama ∧
        poolChange text.python inspected .ollama request = none ∧
        seqsChange text.python inspected .ollama request = none
  · rw [if_pos hnothing]
  · rw [if_neg hnothing]
    rfl

theorem otherEntries_write (env : List String) (value : Option String) :
    (envWithContext env value).filter (fun item => (partitionSign item).1 ≠ contextEnv) =
      env.filter fun item => (partitionSign item).1 ≠ contextEnv := by
  rw [envWithContext_eq, filter_append, filter_filter]
  cases value <;> simp [partitionSign_entry]

theorem served_ollama (hreads : ReadsBack text.python) (sha1 : String → String)
    (hwindow : 0 < window) :
    Served text sha1 .ollama window seqs inspected
      (applied text .ollama inspected (asked .ollama window seqs)) := by
  have hcmd := cmd_applied_ollama text inspected (asked .ollama window seqs)
  have hspec : configuredContext text.python
        (applied text .ollama inspected (asked .ollama window seqs)) .ollama = some window ∧
      RestKept .ollama inspected
        (applied text .ollama inspected (asked .ollama window seqs)) := by
    have htarget : windowTarget text.python inspected .ollama { contextLength := some window } =
        some window := rfl
    by_cases hsame : configuredContext text.python inspected .ollama = some window
    · have happlied : applied text .ollama inspected (asked .ollama window seqs) = inspected :=
        applied_of_eq (htarget.trans hsame.symm)
      rw [happlied]
      exact ⟨hsame, rfl, rfl⟩
    · have hother : windowTarget text.python inspected .ollama { contextLength := some window } ≠
          configuredContext text.python inspected .ollama :=
        fun heq => hsame (heq.symm.trans htarget)
      have henv : (applied text .ollama inspected (asked .ollama window seqs)).config.env =
          envWithContext inspected.config.env (some (toString window)) := (applied_of_ne hother).1
      refine ⟨?_, hcmd, ?_⟩
      · change envContext text.python _ = _
        rw [henv]
        exact (lawful_env hreads _).read_write _ ⟨window, hwindow, rfl⟩
      · rw [henv]
        exact otherEntries_write _ _
  have hkind : ServerKind.ollama ≠ .vllm := by decide
  refine ⟨hspec.1, fun heq => absurd heq hkind, ?_, hspec.2, by rw [hcmd]⟩
  exact planContext_eq_none hspec.1 fun heq => absurd heq hkind

end

/-- **The plan.** A plan for a positive window and concurrency does what was asked and leaves the
rest. Its networks are the container's, each once, or none if it shares a namespace. -/
theorem plan_serves (text : LeverText) (hreads : ReadsBack text.python) (sha1 : String → String)
    (kind : ServerKind) (inspected : Container) (hfollow : ValuesFollow inspected.config.cmd)
    (window seqs : ℤ) (hwindow : 0 < window) (hseqs : 0 < seqs) :
    Served text sha1 kind window seqs inspected
        (applied text kind inspected (asked kind window seqs)) ∧
      ∀ plan, planContext text inspected kind (asked kind window seqs) = some plan →
        if exclusiveMode inspected.hostConfig.networkMode then
          planNetworks plan = []
        else
          (planNetworks plan).Perm (inspected.networks.entries.map Prod.fst) := by
  constructor
  · cases kind with
    | vllm => exact served_vllm hreads sha1 hfollow hwindow hseqs
    | ollama => exact served_ollama hreads sha1 hwindow
  · intro plan hplan
    rw [planNetworks_eq hplan]
    split
    next hmode => rw [networking_exclusive hmode]; rfl
    next hmode => exact networking_perm (Bool.eq_false_iff.mpr hmode)

def twoWindows : Container where
  id := "0123456789abcdef"
  config :=
    { image := "vllm"
      cmd := ["--max-model-len=4096", "--dtype", "half", "--max-model-len", "8192"] }
  hostConfig := { networkMode := "llm" }
  networks := (OrdDict.empty.insert "llm" {}).insert "clients" {}

theorem plan_serves_two_windows :
    (applied decimalText .vllm twoWindows (asked .vllm 16384 8)).config.cmd =
        ["--max-model-len=16384", "--dtype", "half", "--max-model-len", "16384", "--max-num-seqs",
          "8"] ∧
      planContext decimalText (applied decimalText .vllm twoWindows (asked .vllm 16384 8)) .vllm
        (asked .vllm 16384 8) = none := by
  refine ⟨by decide, ?_⟩
  refine (plan_serves decimalText readsBack_decimalText (fun text => text) .vllm twoWindows ?_
    16384 8 (by decide) (by decide)).1.settled
  simp only [twoWindows, ValuesFollow, IsValue]
  decide

/-- A container in the host's namespace is on the network `host`, and its plan names none. -/
theorem host_network_not_named :
    let inspected : Container :=
      { id := "", config := { image := "vllm" }, hostConfig := { networkMode := "host" },
        networks := OrdDict.empty.insert "host" {} }
    (planContext decimalText inspected .vllm (asked .vllm 8192 8)).map planNetworks = some [] ∧
      inspected.networks.entries.map Prod.fst = ["host"] := by
  decide

end ServerContext

end BrokerParrot
