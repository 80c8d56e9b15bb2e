import BrokerParrot.LlmFactory

/-!
# The stamp of a served job

The per-kind arbiter counts running rows by the kind they are stamped with. A job is served where
its stamp says, or its row is stamped again, on every path but one: when none of its preferences
answers it goes to the default of the box under the stamp it had.
-/

namespace BrokerParrot

open List Option ServerKind

variable {name : String} {names prefs warm : List String} {cache : ProbeCache} {env : ResolveEnv}
  {pending minQueue : ℤ} {default : ServerKind}

namespace ServerKind

theorem text_ne_empty (kind : ServerKind) : kind.text ≠ "" := by cases kind <;> decide

theorem ofText_text (kind : ServerKind) : ofText kind.text = some kind := by cases kind <;> rfl

end ServerKind

theorem ne_empty_of_ofText (hkind : ServerKind.ofText name ≠ none) : name ≠ "" := by
  rintro rfl
  exact hkind rfl

theorem builtKind_text (kind : ServerKind) : builtKind kind.text = kind := by cases kind <;> rfl

theorem text_builtKind_iff (name : String) :
    (builtKind name).text = name ↔ ServerKind.ofText name ≠ none := by
  unfold builtKind ServerKind.ofText
  split_ifs with hvllm hollama <;> simp_all [ServerKind.text, eq_comm]

/-! ### What the probe and the choice return -/

theorem ProbeCache.mem_probeAvailable {sight : Sighting}
    (hmem : name ∈ (cache.probeAvailable sight names).2) :
    name ∈ names ∧ ServerKind.ofText name ≠ none := by
  induction names generalizing cache with
  | nil => exact absurd hmem not_mem_nil
  | cons first rest ih =>
    unfold probeAvailable at hmem
    split at hmem
    next => exact (ih hmem).imp_left (mem_cons_of_mem _)
    next kind hkind =>
      have hsplit : name = first ∨
          name ∈ ((cache.look sight kind).1.probeAvailable sight rest).2 := by
        dsimp only at hmem
        split_ifs at hmem with halive
        · exact mem_cons.mp hmem
        · exact Or.inr hmem
      rcases hsplit with rfl | hrest
      · exact ⟨mem_cons_self, by simp [hkind]⟩
      · exact (ih hrest).imp_left (mem_cons_of_mem _)

theorem ofText_of_mem_availableServers {available : Option (List ServerKind)}
    (hmem : name ∈ (availableServers env prefs available cache).2) :
    ServerKind.ofText name ≠ none := by
  cases available with
  | none => exact (ProbeCache.mem_probeAvailable hmem).2
  | some =>
    obtain ⟨kind, -, rfl⟩ := mem_map.mp hmem
    rw [ofText_text]
    exact some_ne_none _

section

variable {hot kinds : List String}

theorem firstWorthStarting_mem {kind : String}
    (hfirst : firstWorthStarting hot pending minQueue kinds = some kind) : kind ∈ kinds := by
  induction kinds with
  | nil => cases hfirst
  | cons head rest ih =>
    unfold firstWorthStarting at hfirst
    split_ifs at hfirst with hskip
    · exact mem_cons_of_mem _ (ih hfirst)
    · rw [Option.some.inj hfirst]
      exact mem_cons_self

theorem firstWorthStarting_isSome (hne : kinds ≠ []) :
    ∃ kind, firstWorthStarting hot pending minQueue kinds = some kind := by
  induction kinds with
  | nil => exact absurd rfl hne
  | cons head rest ih =>
    unfold firstWorthStarting
    split_ifs with hskip
    · exact ih hskip.2.2.2.2
    · exact ⟨head, rfl⟩

theorem nonBlank_eq_self (hnamed : ∀ name ∈ names, name ≠ "") : nonBlank names = names :=
  filter_eq_self.mpr fun name hmem => decide_eq_true (hnamed name hmem)

theorem chooseServerType_cases (preference warm : List String) (pending minQueue : ℤ)
    {available : List String} (hnamed : ∀ name ∈ available, name ≠ "") :
    (available = [] ∧ chooseServerType preference available warm pending minQueue =
        (nonBlank preference).head?) ∨
      (available ≠ [] ∧ (∀ kind ∈ nonBlank preference, kind ∉ available) ∧
        chooseServerType preference available warm pending minQueue = none) ∨
      (available ≠ [] ∧ ∃ kind ∈ nonBlank preference, kind ∈ available ∧
        chooseServerType preference available warm pending minQueue = some kind) := by
  unfold chooseServerType
  rw [nonBlank_eq_self hnamed]
  by_cases hnone : available = []
  · exact Or.inl ⟨hnone, if_pos hnone⟩
  · refine Or.inr ?_
    rw [if_neg hnone]
    by_cases hempty : (nonBlank preference).filter (· ∈ available) = []
    · refine Or.inl ⟨hnone, fun kind hkind hmem => ?_, by rw [hempty]; rfl⟩
      exact filter_eq_nil_iff.mp hempty kind hkind (decide_eq_true hmem)
    · obtain ⟨kind, hkind⟩ : ∃ kind, firstWorthStarting (nonBlank warm) pending minQueue
          ((nonBlank preference).filter (· ∈ available)) = some kind :=
        firstWorthStarting_isSome hempty
      obtain ⟨hpreferred, hmem⟩ := mem_filter.mp (firstWorthStarting_mem hkind)
      exact Or.inr ⟨hnone, kind, hpreferred, of_decide_eq_true hmem, hkind⟩

end

/-! ### The stamp after a call -/

def StampTrue (id : JobId) (result : Resolution) : Prop :=
  (result.db.jobs.get? id).bind NodeJob.resolvedServer = some result.backend.serverType.text

section

variable {controls : WorkerControls} {worker : WorkerKey} {id : JobId} {row : NodeJob}
  {stamp kind : String} {db : Db}

theorem resolvedServer_restamp (hget : db.jobs.get? id = some row)
    (hrunning : row.status = .running) (hkind : kind ≠ "") :
    ((restampResolvedServer id kind db).jobs.get? id).bind NodeJob.resolvedServer = some kind := by
  unfold restampResolvedServer Db.updateRunning Db.updateJobs
  rw [if_neg hkind]
  rw [Table.get?_update, hget]
  simp [hrunning]

theorem not_stampTrue_serve (hget : db.jobs.get? id = some row)
    (hstamp : row.resolvedServer = some "") (kind : Option String) :
    ¬ StampTrue id (serve env controls worker (some (id, row)) kind cache db) := by
  have hkept : (serve env controls worker (some (id, row)) kind cache db).db = db := by
    unfold serve
    have hnone : orNull row.resolvedServer = none := by simp [orNull, hstamp]
    split <;> simp_all
  unfold StampTrue
  rw [hkept, hget, bind_some, hstamp, Option.some.injEq]
  exact fun heq => text_ne_empty _ heq.symm

variable (hwrites : env.writeOk = true) (hget : db.jobs.get? id = some row)
  (hrunning : row.status = .running) (hstamp : row.resolvedServer = some stamp)
  (hnamed : stamp ≠ "")

include hget hstamp

theorem stampTrue_serve_none :
    StampTrue id (serve env controls worker (some (id, row)) none cache db) ↔
      stamp = (controls.llmConfigFor worker).serverType.text := by
  have hbackend : (serve env controls worker (some (id, row)) none cache db).backend.serverType
      = (controls.llmConfigFor worker).serverType := builtKind_text _
  have hstamped : ((serve env controls worker (some (id, row)) none cache db).db.jobs.get?
      id).bind NodeJob.resolvedServer = some stamp := by
    change (db.jobs.get? id).bind NodeJob.resolvedServer = some stamp
    rw [hget, bind_some, hstamp]
  unfold StampTrue
  rw [hstamped, hbackend, Option.some.injEq]

include hwrites hrunning hnamed

theorem stampTrue_serve_some (hkind : kind ≠ "") :
    StampTrue id (serve env controls worker (some (id, row)) (some kind) cache db) ↔
      ServerKind.ofText kind ≠ none := by
  have hold : orNull row.resolvedServer = some stamp := by simp [orNull, hstamp, hnamed]
  have hnew : orNull (some kind) = some kind := by simp [orNull, hkind]
  have hstamped : ((serve env controls worker (some (id, row)) (some kind) cache db).db.jobs.get?
      id).bind NodeJob.resolvedServer = some kind := by
    unfold serve
    simp only [bind_some, hold, hnew]
    split_ifs with hother
    · exact resolvedServer_restamp hget hrunning hkind
    · have hsame : kind = stamp := by_contra fun hne => hother ⟨hne, hwrites⟩
      rw [hget, bind_some, hstamp, hsame]
  have hbackend : (serve env controls worker (some (id, row)) (some kind) cache
      db).backend.serverType = builtKind kind := by
    unfold serve getBackend
    simp [hnew]
  unfold StampTrue
  rw [hstamped, hbackend, Option.some.injEq, eq_comm, text_builtKind_iff]

theorem stampTrue_choice {preference offered : List String} (hprefs : nonBlank preference ≠ [])
    (hoffered : ∀ name ∈ offered, ServerKind.ofText name ≠ none) :
    StampTrue id (serve env controls worker (some (id, row))
        (chooseServerType (nonBlank preference) offered warm pending minQueue) cache db) ↔
      (∃ kind ∈ nonBlank preference, kind ∈ offered) ∨
        (offered = [] ∧ ∃ kind, (nonBlank preference).head? = some kind ∧
          ServerKind.ofText kind ≠ none) ∨
        (offered ≠ [] ∧ stamp = (controls.llmConfigFor worker).serverType.text) := by
  have hblank : nonBlank (nonBlank preference) = nonBlank preference :=
    nonBlank_eq_self fun name hmem => of_decide_eq_true (mem_filter.mp hmem).2
  have hnames : ∀ name ∈ offered, name ≠ "" :=
    fun name hmem => ne_empty_of_ofText (hoffered name hmem)
  rcases chooseServerType_cases (nonBlank preference) warm pending minQueue hnames with
    ⟨hnone, hchoice⟩ | ⟨hsome, hmissing, hchoice⟩ | ⟨hsome, kind, hpreferred, hmem, hchoice⟩
  · obtain ⟨first, rest, hfirst⟩ := exists_cons_of_ne_nil hprefs
    rw [hchoice, hblank, hfirst, head?_cons]
    have hkind : first ≠ "" := by
      have hmem : first ∈ nonBlank preference := hfirst ▸ mem_cons_self
      exact of_decide_eq_true (mem_filter.mp hmem).2
    rw [stampTrue_serve_some hwrites hget hrunning hstamp hnamed hkind]
    simp [hnone]
  · rw [hblank] at hmissing
    rw [hchoice, stampTrue_serve_none hget hstamp]
    have hnothing : ¬ ∃ kind ∈ nonBlank preference, kind ∈ offered :=
      fun ⟨kind, hkind, hmem⟩ => hmissing kind hkind hmem
    simp [hsome, hnothing]
  · rw [hblank] at hpreferred
    rw [hchoice, stampTrue_serve_some hwrites hget hrunning hstamp hnamed (hnames kind hmem)]
    exact iff_of_true (hoffered kind hmem) (Or.inl ⟨kind, hpreferred, hmem⟩)

theorem stampTrue_unpreferred {live : List String}
    (hlive : ∀ name ∈ live, ServerKind.ofText name ≠ none) :
    StampTrue id
      (if "vllm" ∈ live then serve env controls worker (some (id, row)) (some "vllm") cache db
      else if default.text ∈ live ∨ live = [] then
        serve env controls worker (some (id, row)) (some default.text) cache db
      else serve env controls worker (some (id, row)) live.head? cache db) := by
  have hserve {kind : String} (hkind : ServerKind.ofText kind ≠ none) :
      StampTrue id (serve env controls worker (some (id, row)) (some kind) cache db) :=
    (stampTrue_serve_some hwrites hget hrunning hstamp hnamed (ne_empty_of_ofText hkind)).mpr hkind
  split_ifs with hvllm hdefault
  · exact hserve (by decide)
  · exact hserve (by rw [ofText_text]; exact some_ne_none _)
  · obtain ⟨name, rest, rfl⟩ := exists_cons_of_ne_nil fun hnil => hdefault (Or.inr hnil)
    exact hserve (hlive name mem_cons_self)

end

theorem resolveForJob_eq (env : ResolveEnv) (controls : WorkerControls) (worker : WorkerKey)
    (id : JobId) (row : NodeJob) (available : Option (List ServerKind)) (db : Db) :
    ∃ kind cache, resolveForJob env controls worker (some (id, row)) available db =
      serve env controls worker (some (id, row)) kind cache db := by
  unfold resolveForJob
  dsimp only
  split_ifs <;> exact ⟨_, _, rfl⟩

/-- **The stamp.** A running row is stamped with the kind of the backend it got if and only if its
stamp was not empty and: the stamped server answers, or there is no preference, or a preferred
server is offered, or nothing is and the first preference names a server, or something is and the
stamp is the box default. -/
theorem stamp_true_iff (env : ResolveEnv) (controls : WorkerControls) (worker : WorkerKey)
    (id : JobId) (row : NodeJob) (stamp : String) (available : Option (List ServerKind)) (db : Db)
    (hget : db.jobs.get? id = some row) (hrunning : row.status = .running)
    (hstamp : row.resolvedServer = some stamp) (hwrites : env.writeOk = true) :
    let prefs := nonBlank (row.serverTypes.getD [])
    let looked := env.cache.probeAvailable env.first [stamp]
    let offered := (availableServers env prefs available looked.1).2
    StampTrue id (resolveForJob env controls worker (some (id, row)) available db) ↔
      stamp ≠ "" ∧ (looked.2 ≠ [] ∨ prefs = [] ∨ (∃ kind ∈ prefs, kind ∈ offered) ∨
        (offered = [] ∧ ∃ kind, prefs.head? = some kind ∧ ServerKind.ofText kind ≠ none) ∨
        (offered ≠ [] ∧ stamp = (controls.llmConfigFor worker).serverType.text)) := by
  intro prefs looked offered
  by_cases hnamed : stamp = ""
  · subst hnamed
    obtain ⟨kind, cache, heq⟩ := resolveForJob_eq env controls worker id row available db
    rw [heq]
    exact iff_of_false (not_stampTrue_serve hget hstamp kind) fun h => h.1 rfl
  have hold : orNull row.resolvedServer = some stamp := by simp [orNull, hstamp, hnamed]
  unfold resolveForJob
  simp only [bind_some, hold, toList_some]
  by_cases halive : looked.2 = []
  swap
  · -- the stamped server answers
    rw [if_pos halive]
    obtain ⟨name, hname⟩ := exists_mem_of_ne_nil _ halive
    obtain ⟨hmem, hkind⟩ := ProbeCache.mem_probeAvailable hname
    obtain rfl := mem_singleton.mp hmem
    refine iff_of_true ?_ ⟨hnamed, Or.inl halive⟩
    exact (stampTrue_serve_some hwrites hget hrunning hstamp hnamed hnamed).mpr hkind
  rw [if_neg (not_not.mpr halive)]
  by_cases hprefs : prefs = []
  · -- no preference
    rw [if_pos hprefs]
    refine iff_of_true ?_ ⟨hnamed, Or.inr (Or.inl hprefs)⟩
    refine stampTrue_unpreferred hwrites hget hrunning hstamp hnamed fun name hmem => ?_
    exact (ProbeCache.mem_probeAvailable hmem).2
  rw [if_neg hprefs]
  refine Iff.trans (stampTrue_choice hwrites hget hrunning hstamp hnamed hprefs ?_) ?_
  · exact fun name hmem => ofText_of_mem_availableServers hmem
  · exact ⟨fun h => ⟨hnamed, Or.inr (Or.inr h)⟩,
      fun h => (h.2.resolve_left (not_not.mpr halive)).resolve_left hprefs⟩

/-! ### A job that prefers one server -/

def vllmRow : NodeJob :=
  { runId := "run", nodeId := "chat", nodeModule := "m", queue := .gpu, project := "",
    status := .running, serverTypes := some ["vllm"], resolvedServer := some "vllm",
    claimedBy := some "box-gpu", createdAt := 0 }

def vllmDb : Db := { jobs := Table.ofRows [vllmRow] }

def answering (kinds : List ServerKind) : ResolveEnv where
  first := ⟨fun kind => kind ∈ kinds, 0⟩
  second := ⟨fun kind => kind ∈ kinds, 0⟩

theorem stamp_true_iff_alive :
    StampTrue 0 (resolveForJob (answering [.vllm]) OrdDict.empty ⟨"box-gpu", .gpu, ""⟩
      (some (0, vllmRow)) none vllmDb) :=
  (stamp_true_iff (answering [.vllm]) OrdDict.empty ⟨"box-gpu", .gpu, ""⟩ 0 vllmRow "vllm" none
    vllmDb rfl rfl rfl rfl).mpr ⟨by decide, Or.inl (by decide)⟩

/-- The batching server is down and the other one is up. The job goes to the other one and its row
still counts against the first. -/
theorem fallback_keeps_stamp :
    let result := resolveForJob (answering [.ollama]) OrdDict.empty ⟨"box-gpu", .gpu, ""⟩
      (some (0, vllmRow)) none vllmDb
    result.backend.serverType = .ollama ∧
      (result.db.jobs.get? 0).bind NodeJob.resolvedServer = some "vllm" := by
  decide +kernel

/-! ### A server that answers -/

def Answers (live : ServerKind → Bool) (name : String) : Bool := (ServerKind.ofText name).any live

def ResolveEnv.Reports (env : ResolveEnv) (live : ServerKind → Bool) (stamped : Option String)
    (prefs : List String) : Prop :=
  let looked := env.cache.probeAvailable env.first stamped.toList
  let names := (prefs ++ ["ollama", "vllm"]).eraseDups
  looked.2 = stamped.toList.filter (Answers live) ∧
    (looked.1.probeAvailable env.second names).2 = names.filter (Answers live)

section

variable {live : ServerKind → Bool} (env : ResolveEnv) (controls : WorkerControls)
  (worker : WorkerKey) (job : Option (JobId × NodeJob)) (cache : ProbeCache) (db : Db)

theorem answers_text (live : ServerKind → Bool) (kind : ServerKind) :
    Answers live kind.text = live kind := by
  rw [Answers, ofText_text, any_some]

theorem text_mem_offered (prefs : List String) {kind : ServerKind} (hlive : live kind = true) :
    kind.text ∈ (prefs ++ ["ollama", "vllm"]).eraseDups.filter (Answers live) := by
  refine mem_filter.mpr ⟨?_, (answers_text live kind).trans hlive⟩
  cases kind <;> simp [ServerKind.text]

theorem ne_empty_of_answers (hanswers : Answers live name = true) : name ≠ "" := by
  rintro rfl
  cases hanswers

theorem serve_kind (hname : name ≠ "") :
    (serve env controls worker job (some name) cache db).backend.serverType = builtKind name := by
  have hnew : orNull (some name) = some name := by simp [orNull, hname]
  simp [serve, getBackend, hnew]

theorem live_serve (hanswers : Answers live name = true) :
    live (serve env controls worker job (some name) cache db).backend.serverType = true := by
  have hkind : ServerKind.ofText name ≠ none := fun hnone => by simp [Answers, hnone] at hanswers
  rw [serve_kind _ _ _ _ _ _ (ne_empty_of_answers hanswers), ← answers_text live,
    (text_builtKind_iff name).mpr hkind, hanswers]

theorem live_unpreferred {found : List String} (hfound : found ≠ [])
    (hanswers : ∀ name ∈ found, Answers live name = true) :
    live (if "vllm" ∈ found then serve env controls worker job (some "vllm") cache db
      else if default.text ∈ found ∨ found = [] then
        serve env controls worker job (some default.text) cache db
      else serve env controls worker job found.head? cache db).backend.serverType = true := by
  split_ifs with hvllm hdefault
  · exact live_serve _ _ _ _ _ _ (hanswers _ hvllm)
  · exact live_serve _ _ _ _ _ _ (hanswers _ (hdefault.resolve_right hfound))
  · obtain ⟨name, rest, rfl⟩ := exists_cons_of_ne_nil hfound
    exact live_serve _ _ _ _ _ _ (hanswers _ mem_cons_self)

theorem live_choice (hprefs : ∀ name ∈ prefs, name ≠ "") (hsome : ∃ kind, live kind = true) :
    live (serve env controls worker job (chooseServerType prefs
        ((prefs ++ ["ollama", "vllm"]).eraseDups.filter (Answers live)) warm pending minQueue)
        cache db).backend.serverType = true ↔
      (∃ name ∈ prefs, Answers live name = true) ∨
        live (controls.llmConfigFor worker).serverType = true := by
  have hoffered {name : String} : name ∈ (prefs ++ ["ollama", "vllm"]).eraseDups.filter
      (Answers live) ↔ (name ∈ prefs ∨ name = "ollama" ∨ name = "vllm") ∧
        Answers live name = true := by simp
  rcases chooseServerType_cases prefs warm pending minQueue
    fun name hmem => ne_empty_of_answers (hoffered.mp hmem).2 with
    ⟨hnone, -⟩ | ⟨-, hmissing, hchoice⟩ | ⟨-, name, hpreferred, hmem, hchoice⟩
  · obtain ⟨kind, hlive⟩ := hsome
    exact absurd hnone (ne_nil_of_mem (text_mem_offered prefs hlive))
  · rw [nonBlank_eq_self hprefs] at hmissing
    rw [hchoice, or_iff_right fun ⟨name, hmem, hanswers⟩ =>
      hmissing name hmem (hoffered.mpr ⟨Or.inl hmem, hanswers⟩)]
    change live (builtKind (controls.llmConfigFor worker).serverType.text) = true ↔ _
    rw [builtKind_text]
  · rw [nonBlank_eq_self hprefs] at hpreferred
    obtain ⟨-, hanswers⟩ := hoffered.mp hmem
    rw [hchoice]
    exact iff_of_true (live_serve _ _ _ _ _ _ hanswers) (Or.inl ⟨name, hpreferred, hanswers⟩)

/-- **A live server.** Some server answers. A job is sent to one that does, and to the stamped one
if that is among them, if and only if the stamp answers, or there is no preference, or a preferred
server answers, or the box default does. -/
theorem served_alive_iff (live : ServerKind → Bool)
    (hreports : env.Reports live (job.bind fun entry => orNull entry.2.resolvedServer)
      (nonBlank ((job.bind fun entry => entry.2.serverTypes).getD [])))
    (hsome : ∃ kind, live kind = true) :
    let prefs := nonBlank ((job.bind fun entry => entry.2.serverTypes).getD [])
    let stamped := job.bind fun entry => orNull entry.2.resolvedServer
    let served := (resolveForJob env controls worker job none db).backend.serverType
    (live served = true ∧
        ∀ kind, stamped = some kind.text → live kind = true → served = kind) ↔
      ((∃ name, stamped = some name ∧ Answers live name = true) ∨ prefs = [] ∨
        (∃ name ∈ prefs, Answers live name = true) ∨
        live (controls.llmConfigFor worker).serverType = true) := by
  unfold resolveForJob availableServers
  dsimp only
  have hnamed : ∀ name ∈ nonBlank ((job.bind fun entry => entry.2.serverTypes).getD []),
      name ≠ "" := fun name hmem => of_decide_eq_true (mem_filter.mp hmem).2
  generalize (job.bind fun entry => orNull entry.2.resolvedServer) = stamped at hreports ⊢
  generalize nonBlank ((job.bind fun entry => entry.2.serverTypes).getD []) = prefs
    at hreports hnamed ⊢
  obtain ⟨hfirst, hsecond⟩ := hreports
  rw [hfirst]
  by_cases halive : ∃ name, stamped = some name ∧ Answers live name = true
  · -- the stamped server answers
    obtain ⟨name, rfl, hanswers⟩ := halive
    refine iff_of_true ?_ (Or.inl ⟨name, rfl, hanswers⟩)
    rw [if_pos (by simp [hanswers])]
    refine ⟨live_serve _ _ _ _ _ _ hanswers, fun kind hkind _ => ?_⟩
    rw [serve_kind _ _ _ _ _ _ (ne_empty_of_answers hanswers), Option.some.inj hkind,
      builtKind_text]
  have hdown : stamped.toList.filter (Answers live) = [] :=
    filter_eq_nil_iff.mpr fun name hmem hanswers =>
      halive ⟨name, mem_toList.mp hmem, hanswers⟩
  rw [if_neg (not_not.mpr hdown), or_iff_right halive, and_iff_left fun kind hkind hlive =>
    absurd ⟨_, hkind, (answers_text live kind).trans hlive⟩ halive]
  by_cases hprefs : prefs = []
  · subst hprefs
    rw [if_pos rfl]
    obtain ⟨kind, hlive⟩ := hsome
    have hfound := text_mem_offered [] hlive
    rw [← hsecond] at hfound
    refine iff_of_true (live_unpreferred _ _ _ _ _ _ (ne_nil_of_mem hfound) ?_) (Or.inl rfl)
    intro name hmem
    exact (mem_filter.mp (hsecond ▸ hmem : name ∈ List.filter (Answers live) _)).2
  rw [if_neg hprefs, or_iff_right hprefs]
  rw [hsecond]
  exact live_choice _ _ _ _ _ _ hnamed hsome

end

theorem served_alive_iff_other : (resolveForJob (answering [.ollama]) OrdDict.empty
    ⟨"box-gpu", .gpu, ""⟩ (some (0, vllmRow)) none vllmDb).backend.serverType = .ollama := by
  obtain ⟨hlive, -⟩ := (served_alive_iff (answering [.ollama]) OrdDict.empty ⟨"box-gpu", .gpu, ""⟩
    (some (0, vllmRow)) vllmDb (fun kind => kind = .ollama)
    ⟨by decide +kernel, by decide +kernel⟩ ⟨.ollama, rfl⟩).mpr (by decide +kernel)
  exact of_decide_eq_true hlive

/-- The job prefers the batching server, which is down, as it is the default of the box. The other
server answers. -/
theorem dead_default_served :
    let live : ServerKind → Bool := fun kind => kind = .ollama
    (answering [.ollama]).Reports live vllmRow.resolvedServer ["vllm"] ∧
      (resolveForJob (answering [.ollama])
        (OrdDict.empty.insert ⟨"box-gpu", .gpu, ""⟩ { llm := { serverType := .vllm } })
        ⟨"box-gpu", .gpu, ""⟩ (some (0, vllmRow)) none vllmDb).backend.serverType = .vllm := by
  exact ⟨⟨by decide +kernel, by decide +kernel⟩, by decide +kernel⟩

end BrokerParrot
