import BrokerParrot.ContextLever
import BrokerParrot.Proof.DockerCalls

/-!
# What a window change can lose

The lever removes the old container before it creates the new one, because both need the name. If
the create then fails, no container of that name is left. In every other case there is a container
when the lever returns, and after a transient verdict a call with a healthy daemon brings it up;
apart from a container that was configured as asked but is on no network, which the lever stops
first.
-/

namespace BrokerParrot

open Prog Option

variable {env : LeverEnv} {kind : ServerKind} {request : WindowRequest} {world : DockerWorld}
  {before : Container}

def Stranded (env : LeverEnv) (kind : ServerKind) (request : WindowRequest)
    (container : Container) : Prop :=
  planContext env.text container kind request = none ∧ container.running = true ∧
    detached container = true

def StartStatus.Served (status : StartStatus) : Prop := status = .started ∨ status = .alreadyRunning

/-- How a part of the lever ends. There is a container, and one that is not stranded unless the
verdict is final. Without failing calls the server comes up. -/
structure LeverEnd (env : LeverEnv) (kind : ServerKind) (request : WindowRequest) (name : String)
    (faults : ℕ → Option DockerFault) (result : Except ApiError StartOutcome)
    (after : DockerWorld) : Prop where
  kept : ∃ container, after.daemon.containers.get? name = some container ∧
    ((∃ verdict, result = .ok verdict ∧ verdict.status ≠ .transient) ∨
      ¬ Stranded env kind request container)
  served : (∀ call, faults call = none) → ∃ verdict, result = .ok verdict ∧ verdict.status.Served

section

variable {name : String} {faults : ℕ → Option DockerFault} {after : DockerWorld}
  {container : Container} {result : Except ApiError StartOutcome}
  {post : Except ApiError StartOutcome → DockerWorld → Prop}

theorem not_stranded_of_stopped (hstopped : container.running = false) :
    ¬ Stranded env kind request container := by
  rintro ⟨-, hrunning, -⟩
  rw [hstopped] at hrunning
  cases hrunning

theorem not_stranded_of_plan (hplan : (planContext env.text container kind request).isSome) :
    ¬ Stranded env kind request container := by
  rintro ⟨hnone, -⟩
  rw [hnone] at hplan
  cases hplan

theorem LeverEnd.of_fault (hget : after.daemon.containers.get? name = some container)
    (hlater : ¬ Stranded env kind request container) (hfailed : ∃ call, (faults call).isSome) :
    LeverEnd env kind request name faults result after := by
  refine ⟨⟨container, hget, Or.inr hlater⟩, fun hnone => ?_⟩
  obtain ⟨call, hfault⟩ := hfailed
  rw [hnone call] at hfault
  cases hfault

theorem LeverEnd.of_served {verdict : StartOutcome}
    (hget : after.daemon.containers.get? name = some container) (hserved : verdict.status.Served) :
    LeverEnd env kind request name faults (.ok verdict) after := by
  refine ⟨⟨container, hget, Or.inl ⟨verdict, rfl, ?_⟩⟩, fun _ => ⟨verdict, rfl, hserved⟩⟩
  rcases hserved with hstatus | hstatus <;> rw [hstatus] <;> decide

theorem runs_verdictOf {prog : DockerProg StartOutcome}
    (hprog : prog.Runs (LeverEnd env kind request name faults) world) :
    (verdictOf env prog).Runs (fun result after => (∃ verdict, result = .ok verdict) ∧
      LeverEnd env kind request name faults result after) world := by
  refine hprog.tried_bind fun result after hend => ?_
  cases result with
  | ok verdict => exact Runs.ret ⟨⟨verdict, rfl⟩, hend⟩
  | error =>
    obtain ⟨⟨container, hget, hlater⟩, hserved⟩ := hend
    refine Runs.ret ⟨⟨_, rfl⟩, ⟨container, hget, Or.inr ?_⟩, fun hnone => ?_⟩
    · exact hlater.resolve_left fun ⟨verdict, hverdict, _⟩ => nomatch hverdict
    · obtain ⟨verdict, hverdict, -⟩ := hserved hnone
      cases hverdict

/-! ### Starts -/

def StartEnd (name : String) (container : Container) (faults : ℕ → Option DockerFault)
    (result : Except ApiError DockerReply) (after : DockerWorld) : Prop :=
  after.faults = faults ∧
    ((∃ reply, result = .ok reply ∧ reply.status < 400 ∧
        after.daemon.containers.get? name = some { container with running := true }) ∨
      (∀ reply, result = .ok reply → 400 ≤ reply.status) ∧ (∃ call, (faults call).isSome) ∧
        after.daemon.containers.get? name = some container)

section

variable (hfaults : world.faults = faults)
  (hget : world.daemon.containers.get? name = some container)

include hfaults hget

theorem runs_start (hstopped : container.running = false) :
    (dockerApi (.start name)).Runs (StartEnd name container faults) world := by
  refine (runs_dockerApi (.start name) world).mono fun result after hcalled => ?_
  refine ⟨hcalled.faults.trans hfaults, ?_⟩
  subst hfaults
  rcases hcalled.done with ⟨-, hdaemon, rfl⟩ | ⟨fault, hfault, hdaemon, rfl⟩
  · obtain ⟨hstatus, hstarted⟩ := Daemon.handle_start hget hstopped
    exact Or.inl ⟨_, rfl, by rw [hstatus]; decide, by rw [hdaemon, hstarted]⟩
  · refine Or.inr ⟨?_, ⟨world.calls, isSome_of_eq_some hfault⟩, by rw [hdaemon, hget]⟩
    rintro reply hreply
    cases fault with
    | status code herror =>
      cases hreply
      exact herror
    | raise => cases hreply

theorem runs_startWithPortRaceRetry (retries : ℕ) (hstopped : container.running = false) :
    (startWithPortRaceRetry env name retries).Runs (StartEnd name container faults) world := by
  induction retries generalizing world with
  | zero => exact runs_start hfaults hget hstopped
  | succ retries ih =>
    refine (runs_start hfaults hget hstopped).bind (fun reply after hend => ?_)
      fun error after hend => ?_
    · split_ifs with hrace
      · obtain ⟨hsame, ⟨_, hreply, hstatus, -⟩ | ⟨-, -, hagain⟩⟩ := hend
        · cases hreply
          exact absurd hrace.1 (not_le.mpr hstatus)
        · exact ih hsame hagain
      · exact Runs.ret hend
    · obtain ⟨hsame, ⟨_, hreply, -⟩ | ⟨-, hfault, hagain⟩⟩ := hend
      · cases hreply
      · exact ⟨hsame, Or.inr ⟨nofun, hfault, hagain⟩⟩

omit hfaults in
theorem runs_stopQuietly :
    (stopQuietly name).Runs (fun result after => result = .ok () ∧
      (after.daemon.containers.get? name = some container ∨
        after.daemon.containers.get? name = some { container with running := false })) world := by
  refine (runs_dockerApi (.stop name 5) world).tried_bind fun result after hcalled => ?_
  refine Runs.ret ⟨rfl, ?_⟩
  rcases hcalled.done with ⟨-, hdaemon, -⟩ | ⟨-, -, hdaemon, -⟩
  · rw [hdaemon]
    exact Or.inr (Daemon.handle_stop hget 5).2
  · rw [hdaemon]
    exact Or.inl hget

omit hfaults in
theorem runs_classifyStartFailure (reply : DockerReply) (hstopped : container.running = false)
    (hfailed : ∃ call, (faults call).isSome) :
    (classifyStartFailure env name reply).Runs (LeverEnd env kind request name faults) world := by
  refine (runs_stopQuietly hget).bind (fun _ after hafter => ?_) fun error after hafter => ?_
  · have hsame : after.daemon.containers.get? name = some container := by
      rcases hafter.2 with hsame | hstop
      · exact hsame
      · rw [hstop, ← hstopped]
    have hend (verdict : StartOutcome) :
        LeverEnd env kind request name faults (.ok verdict) after :=
      LeverEnd.of_fault hsame (not_stranded_of_stopped hstopped) hfailed
    split_ifs
    · exact Runs.ret (hend _)
    · exact Runs.ret (hend _)
  · cases hafter.1

theorem runs_startContainer (reason : String) (hstopped : container.running = false) :
    (startContainer env name reason).Runs (LeverEnd env kind request name faults) world := by
  refine (runs_startWithPortRaceRetry hfaults hget startRaceRetries hstopped).bind
    (fun reply after hend => ?_) fun error after hend => ?_
  · obtain ⟨-, ⟨_, hreply, hstatus, hstarted⟩ | ⟨-, hfailed, hsame⟩⟩ := hend
    · cases hreply
      rw [if_neg fun hfailed => absurd hfailed.1 (not_le.mpr hstatus)]
      exact Runs.ret (LeverEnd.of_served hstarted (Or.inl rfl))
    · split_ifs
      · exact runs_classifyStartFailure hsame reply hstopped hfailed
      · exact Runs.ret (LeverEnd.of_fault hsame (not_stranded_of_stopped hstopped) hfailed)
  · obtain ⟨-, ⟨_, hreply, -⟩ | ⟨-, hfailed, hsame⟩⟩ := hend
    · cases hreply
    · exact LeverEnd.of_fault hsame (not_stranded_of_stopped hstopped) hfailed

/-! ### A container that is configured as asked -/

theorem runs_keepContainer (hplan : planContext env.text container kind request = none)
    (hnot : ¬ Stranded env kind request container) :
    (keepContainer env name container request).Runs (fun result after =>
      (∃ verdict, result = .ok verdict) ∧ LeverEnd env kind request name faults result after)
      world := by
  unfold keepContainer
  cases hrunning : container.running with
  | true =>
    -- It would be stranded otherwise.
    have hattached : ¬ detached container = true := fun hdetached =>
      hnot ⟨hplan, hrunning, hdetached⟩
    simp only [if_true, if_neg hattached]
    exact Runs.ret ⟨⟨_, rfl⟩, LeverEnd.of_served hget (Or.inr rfl)⟩
  | false =>
    exact runs_verdictOf (runs_startContainer hfaults hget _ hrunning)

omit hfaults in
theorem runs_keepContainer_stranded (hstranded : Stranded env kind request container) :
    (keepContainer env name container request).Runs (fun result after =>
      ∃ verdict, result = .ok verdict ∧ verdict.status = .permanent ∧
        (after.daemon.containers.get? name).isSome) world := by
  obtain ⟨-, hrunning, hdetached⟩ := hstranded
  unfold keepContainer
  rw [if_pos hrunning, if_pos hdetached]
  refine (runs_stopQuietly hget).bind (fun _ after hafter => ?_) fun error after hafter => ?_
  · refine Runs.ret ⟨_, rfl, rfl, ?_⟩
    rcases hafter.2 with hsame | hstop
    · rw [hsame]
      rfl
    · rw [hstop]
      rfl
  · cases hafter.1

/-! ### A container that is replaced -/

/-- The daemon removes the old container and then fails to create the new one. The calls are counted
from the stop on. -/
def FailsBetween (faults : ℕ → Option DockerFault) (call : ℕ) : Prop :=
  (∀ error, faults call ≠ some (.raise error)) ∧ faults (call + 1) = none ∧
    (faults (call + 2)).isSome

theorem runs_stop (seconds : ℕ) :
    (dockerApi (.stop name seconds)).Runs (fun result after => after.faults = faults ∧
      after.calls = world.calls + 1 ∧
      (∀ error, result = .error error → faults world.calls = some (.raise error)) ∧
      (∀ reply, result = .ok reply → ∀ error, faults world.calls ≠ some (.raise error)) ∧
      ∃ running, after.daemon.containers.get? name = some { container with running := running })
      world := by
  refine (runs_dockerApi _ world).mono fun result after hcalled => ?_
  refine ⟨hcalled.faults.trans hfaults, hcalled.calls, ?_, ?_, ?_⟩
  · rintro error rfl
    rw [← hfaults]
    exact hcalled.of_error.1
  · rintro reply rfl error hraise
    rw [← hfaults] at hraise
    rcases hcalled.of_ok with ⟨hnone, -⟩ | ⟨⟨code, herror, body, hstatus, -⟩, -⟩
    · rw [hnone] at hraise
      cases hraise
    · rw [hstatus] at hraise
      cases hraise
  · rcases hcalled.done with ⟨-, hdaemon, -⟩ | ⟨-, -, hdaemon, -⟩
    · rw [hdaemon]
      exact ⟨false, (Daemon.handle_stop hget seconds).2⟩
    · rw [hdaemon]
      exact ⟨container.running, hget⟩

theorem runs_connect (connect : List (String × Endpoint)) (hstopped : container.running = false) :
    (forEach connect fun entry => do
      let _ ← dockerApi (.connect entry.1 name entry.2)
      return () : DockerProg Unit).Runs (fun result after =>
        (after.faults = faults ∧ ∃ container,
          after.daemon.containers.get? name = some container ∧ container.running = false) ∧
        ∀ error, result = .error error → ∃ call, (faults call).isSome) world := by
  refine Runs.forEach ⟨hfaults, container, hget, hstopped⟩ ?_
  rintro entry world ⟨hfaults, container, hget, hstopped⟩
  have hkept {result : Except ApiError DockerReply} {after : DockerWorld}
      (hcalled : Called (.connect entry.1 name entry.2) world result after) :
      after.faults = faults ∧ ∃ container,
        after.daemon.containers.get? name = some container ∧ container.running = false := by
    refine ⟨hcalled.faults.trans hfaults, ?_⟩
    rcases hcalled.done with ⟨-, hdaemon, -⟩ | ⟨-, -, hdaemon, -⟩
    · rw [hdaemon]
      exact ⟨_, Daemon.handle_connect hget entry.1 entry.2, hstopped⟩
    · rw [hdaemon]
      exact ⟨container, hget, hstopped⟩
  refine (runs_dockerApi _ world).bind (fun reply after hcalled => ?_) fun error after hcalled => ?_
  · exact Runs.ret ⟨hkept hcalled, nofun⟩
  · refine ⟨hkept hcalled, fun _ _ => ⟨world.calls, ?_⟩⟩
    rw [← hfaults]
    exact isSome_of_eq_some hcalled.of_error.1

omit hget in
theorem runs_createReplacement_free (plan : ContextPlan)
    (hfree : world.daemon.containers.get? name = none) (hcall : faults world.calls = none) :
    (createReplacement env name plan).Runs (LeverEnd env kind request name faults) world := by
  subst hfaults
  refine runs_dockerApi_bind hcall fun created hfaults _ hdaemon => ?_
  obtain ⟨hcreated, id, hget⟩ := Daemon.handle_create hfree plan.payload
  rw [if_neg (by rw [hcreated]; decide)]
  refine (runs_connect hfaults (hdaemon ▸ hget) plan.connect rfl).bind (fun _ after hend => ?_)
    fun error after hend => ?_
  · obtain ⟨⟨hfaults, container, hget, hstopped⟩, -⟩ := hend
    exact runs_startContainer hfaults hget _ hstopped
  · obtain ⟨⟨-, container, hget, hstopped⟩, herror⟩ := hend
    exact LeverEnd.of_fault hget (not_stranded_of_stopped hstopped) (herror error rfl)

omit hfaults in
theorem runs_createReplacement_taken (plan : ContextPlan)
    (hlater : ¬ Stranded env kind request container) (hfailed : ∃ call, (faults call).isSome) :
    (createReplacement env name plan).Runs (LeverEnd env kind request name faults) world := by
  refine (runs_dockerApi _ world).bind (fun created after hcalled => ?_)
    fun error after hcalled => ?_
  · have hrefused : 400 ≤ created.status ∧ after.daemon = world.daemon := by
      rcases hcalled.of_ok with ⟨-, hdaemon, rfl⟩ | ⟨⟨code, herror, body, -, rfl⟩, hdaemon⟩
      · obtain ⟨hconflict, hsame⟩ := Daemon.handle_create_taken hget plan.payload
        exact ⟨by rw [hconflict]; decide, hdaemon.trans hsame⟩
      · exact ⟨herror, hdaemon⟩
    rw [if_pos hrefused.1]
    exact Runs.ret (LeverEnd.of_fault (hrefused.2 ▸ hget) hlater hfailed)
  · exact LeverEnd.of_fault (hcalled.of_error.2 ▸ hget) hlater hfailed

theorem runs_replaceContainer (plan : ContextPlan)
    (hplan : (planContext env.text container kind request).isSome)
    (hsafe : ¬ FailsBetween faults world.calls) :
    (replaceContainer env name plan).Runs (LeverEnd env kind request name faults) world := by
  refine (runs_stop hfaults hget 10).bind (fun reply stopped hstop => ?_)
    fun error stopped hstop => ?_
  · obtain ⟨hfaults', hcalls, -, hnoraise, running, hsame⟩ := hstop
    have hlater : ¬ Stranded env kind request { container with running := running } :=
      not_stranded_of_plan hplan
    refine (runs_dockerApi _ stopped).bind (fun removed after hcalled => ?_)
      fun error after hcalled => ?_
    · rcases hcalled.of_ok with ⟨hnone, hdaemon, rfl⟩ | ⟨⟨code, herror, body, hfault, rfl⟩, hdaemon⟩
      · obtain ⟨hremove, hfree⟩ := Daemon.handle_remove hsame
        rw [if_neg (by rw [hremove]; decide)]
        refine runs_createReplacement_free (hcalled.faults.trans hfaults') plan (hdaemon ▸ hfree) ?_
        -- The create is the third call, and the first two did not stand in its way.
        rw [hcalled.calls, hcalls]
        rw [hfaults', hcalls] at hnone
        by_contra hfails
        exact hsafe ⟨hnoraise reply rfl, hnone, isSome_iff_ne_none.mpr hfails⟩
      · have hfailed : ∃ call, (faults call).isSome :=
          ⟨stopped.calls, isSome_of_eq_some (hfaults' ▸ hfault)⟩
        split_ifs
        · exact Runs.ret (LeverEnd.of_fault (hdaemon ▸ hsame) hlater hfailed)
        · exact runs_createReplacement_taken (hdaemon ▸ hsame) plan hlater hfailed
    · obtain ⟨hfault, hdaemon⟩ := hcalled.of_error
      refine LeverEnd.of_fault (hdaemon ▸ hsame) hlater ⟨stopped.calls, ?_⟩
      exact isSome_of_eq_some (hfaults' ▸ hfault)
  · obtain ⟨-, -, hraise, -, running, hsame⟩ := hstop
    refine LeverEnd.of_fault hsame (not_stranded_of_plan hplan) ⟨world.calls, ?_⟩
    exact isSome_of_eq_some (hraise error rfl)

theorem runs_replaceContainer_lost (plan : ContextPlan) (hfails : FailsBetween faults world.calls) :
    (replaceContainer env name plan).Runs (fun _ after =>
      after.daemon.containers.get? name = none) world := by
  obtain ⟨hnoraise, hremove, hcreate⟩ := hfails
  obtain ⟨fault, hcreate⟩ := isSome_iff_exists.mp hcreate
  refine (runs_stop hfaults hget 10).bind (fun reply stopped hstop => ?_)
    fun error stopped hstop => absurd (hstop.2.2.1 error rfl) (hnoraise error)
  obtain ⟨hfaults', hcalls, -, -, running, hsame⟩ := hstop
  obtain ⟨hremoved, hfree⟩ := Daemon.handle_remove hsame
  have hcall : stopped.faults stopped.calls = none := by rw [hfaults', hcalls, hremove]
  refine runs_dockerApi_bind hcall fun after hafter hcalls' hdaemon => ?_
  rw [if_neg (by rw [hremoved]; decide)]
  -- The name is free now, and this is the call that fails.
  have hcall : after.faults after.calls = some fault := by
    rw [hafter, hfaults', hcalls', hcalls, hcreate]
  refine (runs_dockerApi _ after).bind (fun created last hcalled => ?_) fun error last hcalled => ?_
  · obtain ⟨hlast, hreply⟩ := hcalled.of_some hcall
    have hrefused : 400 ≤ created.status := by
      cases fault with
      | status code herror =>
        cases hreply
        exact herror
      | raise => cases hreply
    rw [if_pos hrefused]
    exact Runs.ret (by rw [hlast, hdaemon, hfree])
  · rw [hcalled.of_error.2, hdaemon, hfree]

end

/-! ### The whole lever -/

def DockerFault.Transient : DockerFault → Prop
  | .status code _ body => (DockerBody.json body).isDict = true ∧ code ∉ permanentHttp
  | .raise error => error.noSocket = false

def LosesContainer (env : LeverEnv) (kind : ServerKind) (request : WindowRequest)
    (world : DockerWorld) (before : Container) : Prop :=
  (planContext env.text before kind request).isSome ∧ world.faults world.calls = none ∧
    FailsBetween world.faults (world.calls + 1)

theorem runs_dockerSetContext_fault {fault : DockerFault}
    (hfault : world.faults world.calls = some fault) :
    (dockerSetContext env kind request).Runs (fun result after => after.daemon = world.daemon ∧
      ∃ verdict, result = .ok verdict ∧ (verdict.status = .transient ↔ fault.Transient) ∧
        ¬ verdict.status.Served) world := by
  refine (runs_dockerApi _ world).tried_bind fun result after hcalled => ?_
  obtain ⟨hdaemon, rfl⟩ := hcalled.of_some hfault
  cases fault with
  | raise error =>
    refine Runs.ret ⟨hdaemon, _, rfl, ?_⟩
    unfold classifyException DockerFault.Transient StartStatus.Served
    cases hsocket : error.noSocket <;> simp [hsocket]
  | status code herror body =>
    dsimp only [DockerFault.result]
    by_cases hmissing : code = 404 ∨ (DockerBody.json body).isDict = false
    · rw [if_pos hmissing]
      refine Runs.ret ⟨hdaemon, _, rfl, ⟨nofun, ?_⟩, by simp [StartStatus.Served]⟩
      rintro ⟨hdict, hpermanent⟩
      rcases hmissing with rfl | hother
      · exact absurd (by decide) hpermanent
      · rw [hother] at hdict
        cases hdict
    · rw [if_neg hmissing, if_pos herror]
      refine Runs.ret ⟨hdaemon, _, rfl, ?_⟩
      have hdict : (DockerBody.json body).isDict = true := by
        simpa using (not_or.mp hmissing).2
      by_cases hpermanent : code ∈ permanentHttp <;>
        simp [classifyHttp, DockerFault.Transient, StartStatus.Served, hpermanent, hdict]

theorem runs_dockerSetContext_missing
    (hnone : world.daemon.containers.get? (containerName env kind) = none) :
    (dockerSetContext env kind request).Runs (fun result after => after.daemon = world.daemon ∧
      ∃ verdict, result = .ok verdict ∧ ¬ verdict.status.Served) world := by
  cases hfault : world.faults world.calls with
  | some =>
    refine (runs_dockerSetContext_fault hfault).mono ?_
    rintro result after ⟨hdaemon, verdict, rfl, -, hnot⟩
    exact ⟨hdaemon, verdict, rfl, hnot⟩
  | none =>
    refine (runs_dockerApi _ world).tried_bind fun result after hcalled => ?_
    obtain ⟨hdaemon, rfl⟩ := hcalled.of_none hfault
    rw [Daemon.handle_missing hnone] at hdaemon ⊢
    exact Runs.ret ⟨hdaemon, _, rfl, by simp [StartStatus.Served]⟩

theorem runs_dockerSetContext_inspected
    (hget : world.daemon.containers.get? (containerName env kind) = some before)
    (hcall : world.faults world.calls = none)
    (hkeep : planContext env.text before kind request = none →
      ∀ after, after.faults = world.faults → after.daemon = world.daemon →
        (keepContainer env (containerName env kind) before request).Runs post after)
    (hreplace : ∀ plan, planContext env.text before kind request = some plan →
      ∀ after, after.faults = world.faults → after.calls = world.calls + 1 →
        after.daemon = world.daemon →
        (verdictOf env (replaceContainer env (containerName env kind) plan)).Runs post after) :
    (dockerSetContext env kind request).Runs post world := by
  refine (runs_dockerApi _ world).tried_bind fun result after hcalled => ?_
  obtain ⟨hdaemon, rfl⟩ := hcalled.of_none hcall
  rw [Daemon.handle_inspect hget] at hdaemon ⊢
  dsimp only [DockerBody.inspected]
  cases hplan : planContext env.text before kind request with
  | none => exact hkeep hplan after hcalled.faults hdaemon
  | some plan => exact hreplace plan hplan after hcalled.faults hcalled.calls hdaemon

section

variable (hget : world.daemon.containers.get? (containerName env kind) = some before)

include hget

theorem runs_dockerSetContext (hnot : ¬ Stranded env kind request before)
    (hsafe : ¬ LosesContainer env kind request world before) :
    (dockerSetContext env kind request).Runs (fun result after =>
      (∃ verdict, result = .ok verdict) ∧
        LeverEnd env kind request (containerName env kind) world.faults result after) world := by
  cases hfault : world.faults world.calls with
  | some =>
    refine (runs_dockerSetContext_fault hfault).mono ?_
    rintro result after ⟨hdaemon, verdict, rfl, -⟩
    refine ⟨⟨verdict, rfl⟩, LeverEnd.of_fault (hdaemon ▸ hget) hnot ⟨world.calls, ?_⟩⟩
    exact isSome_of_eq_some hfault
  | none =>
    refine runs_dockerSetContext_inspected hget hfault ?_ ?_
    · intro hplan after hfaults hdaemon
      exact runs_keepContainer hfaults (hdaemon ▸ hget) hplan hnot
    · intro plan hplan after hfaults hcalls hdaemon
      have hsome := isSome_of_eq_some hplan
      refine runs_verdictOf (runs_replaceContainer hfaults (hdaemon ▸ hget) plan hsome ?_)
      rw [hcalls]
      exact fun hfails => hsafe ⟨hsome, hfault, hfails⟩

theorem runs_dockerSetContext_lost (hloses : LosesContainer env kind request world before) :
    (dockerSetContext env kind request).Runs (fun _ after =>
      after.daemon.containers.get? (containerName env kind) = none) world := by
  obtain ⟨hplan, hcall, hfails⟩ := hloses
  refine runs_dockerSetContext_inspected hget hcall (fun hnone => ?_) ?_
  · rw [hnone] at hplan
    cases hplan
  · intro plan _ after hfaults hcalls hdaemon
    rw [← hcalls] at hfails
    have hlost : (replaceContainer env (containerName env kind) plan).Runs _ after :=
      runs_replaceContainer_lost hfaults (hdaemon ▸ hget) plan hfails
    refine hlost.tried_bind fun result last hlast => ?_
    cases result with
    | ok | error => exact Runs.ret hlast

theorem runs_dockerSetContext_stranded (hcall : world.faults world.calls = none)
    (hstranded : Stranded env kind request before) :
    (dockerSetContext env kind request).Runs (fun result after =>
      ∃ verdict, result = .ok verdict ∧ verdict.status = .permanent ∧
        (after.daemon.containers.get? (containerName env kind)).isSome) world := by
  refine runs_dockerSetContext_inspected hget hcall ?_ ?_
  · intro _ after _ hdaemon
    exact runs_keepContainer_stranded (hdaemon ▸ hget) hstranded
  · intro plan hplan
    rw [hstranded.1] at hplan
    cases hplan

end

theorem runs_setContext (henabled : env.disabled = false)
    (hdocker : (dockerSetContext env kind request).Runs post world) :
    (setContext env none kind request).Runs (fun result after =>
      ∃ inner, result = inner.map LeverReturn.outcome ∧ post inner after) world := by
  unfold setContext
  rw [henabled]
  refine hdocker.bind (fun verdict after hpost => ?_) fun error after hpost => ?_
  · exact Runs.ret ⟨.ok verdict, rfl, hpost⟩
  · exact ⟨.error error, rfl, hpost⟩

def Serves (env : LeverEnv) (kind : ServerKind) (request : WindowRequest)
    (daemon : Daemon) : Prop :=
  (setContext env none kind request).Runs (fun result _ =>
    ∃ verdict, result = .ok (.outcome verdict) ∧ verdict.status.Served) (.healthy daemon)

section

variable {daemon : Daemon} (henabled : env.disabled = false)
  (hget : daemon.containers.get? (containerName env kind) = some container)

include henabled hget

theorem serves_of_not_stranded (hnot : ¬ Stranded env kind request container) :
    Serves env kind request daemon := by
  have hsafe : ¬ LosesContainer env kind request (.healthy daemon) container := by
    rintro ⟨-, -, -, -, hcreate⟩
    cases hcreate
  have hrun : (dockerSetContext env kind request).Runs _ (.healthy daemon) :=
    runs_dockerSetContext hget hnot hsafe
  refine (runs_setContext henabled hrun).mono ?_
  rintro _ after ⟨inner, rfl, -, -, hserved⟩
  obtain ⟨verdict, rfl, hstatus⟩ := hserved fun _ => rfl
  exact ⟨verdict, rfl, hstatus⟩

theorem not_serves_of_stranded (hstranded : Stranded env kind request container) :
    ¬ Serves env kind request daemon := by
  rintro ⟨_, after, halone, verdict, rfl, hserved⟩
  have hrun : (dockerSetContext env kind request).Runs _ (.healthy daemon) :=
    runs_dockerSetContext_stranded hget rfl hstranded
  obtain ⟨inner, hinner, other, rfl, hstatus, -⟩ :=
    (Runs.iff_of_alone halone).mp (runs_setContext henabled hrun)
  cases hinner
  rcases hserved with hserved | hserved <;> rw [hserved] at hstatus <;> cases hstatus

end

end

/-- The lever returns a verdict, there is a container of the name when it does, and a transient
verdict means that a call that works brings the server up. -/
def KeepsServer (env : LeverEnv) (kind : ServerKind) (request : WindowRequest)
    (world : DockerWorld) : Prop :=
  (setContext env none kind request).Runs (fun result after =>
    ∃ verdict, result = .ok (.outcome verdict) ∧
      (after.daemon.containers.get? (containerName env kind)).isSome ∧
      (verdict.status = .transient → Serves env kind request after.daemon)) world

/-- The inspection fails in a way that is worth retrying, but the retry only stops the container. -/
def RetriesInVain (env : LeverEnv) (kind : ServerKind) (request : WindowRequest)
    (world : DockerWorld) (before : Container) : Prop :=
  Stranded env kind request before ∧
    ∃ fault, world.faults world.calls = some fault ∧ fault.Transient

section

variable (henabled : env.disabled = false)
  (hbefore : world.daemon.containers.get? (containerName env kind) = some before)

include henabled hbefore

theorem not_keepsServer_of_loses (hloses : LosesContainer env kind request world before) :
    ¬ KeepsServer env kind request world := by
  rintro ⟨_, after, halone, verdict, rfl, hkept, -⟩
  obtain ⟨-, -, hlost⟩ := (Runs.iff_of_alone halone).mp
    (runs_setContext henabled (runs_dockerSetContext_lost hbefore hloses))
  rw [hlost] at hkept
  cases hkept

theorem lost_for_good (hloses : LosesContainer env kind request world before) :
    (setContext env none kind request).Runs (fun _ after =>
      ∀ later : DockerWorld, later.daemon = after.daemon → ∀ other,
        (setContext env none kind other).Runs (fun result last => last.daemon = after.daemon ∧
          ∃ verdict, result = .ok (.outcome verdict) ∧ ¬ verdict.status.Served) later) world := by
  refine (runs_setContext henabled (runs_dockerSetContext_lost hbefore hloses)).mono ?_
  rintro _ after ⟨-, -, hlost⟩ later hlater other
  rw [← hlater] at hlost
  refine (runs_setContext henabled (runs_dockerSetContext_missing hlost)).mono ?_
  rintro _ last ⟨_, rfl, hsame, verdict, rfl, hnot⟩
  exact ⟨hsame.trans hlater, verdict, rfl, hnot⟩

theorem not_keepsServer_of_vain (hvain : RetriesInVain env kind request world before) :
    ¬ KeepsServer env kind request world := by
  rintro ⟨_, after, halone, verdict, rfl, -, hlater⟩
  obtain ⟨hstranded, fault, hfault, htransient⟩ := hvain
  obtain ⟨inner, hinner, hdaemon, other, rfl, hstatus, -⟩ := (Runs.iff_of_alone halone).mp
    (runs_setContext henabled (runs_dockerSetContext_fault hfault))
  cases hinner
  have hserves := hlater (hstatus.mpr htransient)
  rw [hdaemon] at hserves
  exact not_serves_of_stranded henabled hbefore hstranded hserves

theorem keepsServer_of_stranded (hstranded : Stranded env kind request before)
    (hretry : ¬ RetriesInVain env kind request world before) :
    KeepsServer env kind request world := by
  cases hfault : world.faults world.calls with
  | none =>
    refine (runs_setContext henabled
      (runs_dockerSetContext_stranded hbefore hfault hstranded)).mono ?_
    rintro _ after ⟨_, rfl, verdict, rfl, hstatus, hkept⟩
    refine ⟨verdict, rfl, hkept, fun htransient => ?_⟩
    rw [hstatus] at htransient
    cases htransient
  | some fault =>
    refine (runs_setContext henabled (runs_dockerSetContext_fault hfault)).mono ?_
    rintro _ after ⟨_, rfl, hdaemon, verdict, rfl, hstatus, -⟩
    refine ⟨verdict, rfl, by rw [hdaemon, hbefore]; rfl, fun htransient => ?_⟩
    exact absurd ⟨hstranded, fault, hfault, hstatus.mp htransient⟩ hretry

theorem keepsServer_of_not_stranded (hnot : ¬ Stranded env kind request before)
    (hsafe : ¬ LosesContainer env kind request world before) :
    KeepsServer env kind request world := by
  refine (runs_setContext henabled (runs_dockerSetContext hbefore hnot hsafe)).mono ?_
  rintro _ after ⟨_, rfl, ⟨verdict, rfl⟩, ⟨container, hget, hlater⟩, -⟩
  refine ⟨verdict, rfl, by rw [hget]; rfl, fun htransient => ?_⟩
  refine serves_of_not_stranded henabled hget (hlater.resolve_left ?_)
  rintro ⟨_, ⟨⟩, hfinal⟩
  exact hfinal htransient

end

theorem window_change_keeps_iff (env : LeverEnv) (kind : ServerKind) (request : WindowRequest)
    {world : DockerWorld} {before : Container}
    (hbefore : world.daemon.containers.get? (containerName env kind) = some before) :
    KeepsServer env kind request world ↔
      env.disabled = true ∨ ¬ LosesContainer env kind request world before ∧
        ¬ RetriesInVain env kind request world before := by
  cases hdisabled : env.disabled with
  | true =>
    refine iff_of_true ?_ (Or.inl rfl)
    unfold KeepsServer setContext
    rw [hdisabled]
    exact Runs.ret ⟨_, rfl, by rw [hbefore]; rfl, nofun⟩
  | false =>
    rw [or_iff_right (by decide)]
    constructor
    · intro hkeeps
      exact ⟨fun hloses => not_keepsServer_of_loses hdisabled hbefore hloses hkeeps,
        fun hvain => not_keepsServer_of_vain hdisabled hbefore hvain hkeeps⟩
    · rintro ⟨hsafe, hretry⟩
      by_cases hstranded : Stranded env kind request before
      · exact keepsServer_of_stranded hdisabled hbefore hstranded hretry
      · exact keepsServer_of_not_stranded hdisabled hbefore hstranded hsafe

def ollamaContainer : Container where
  id := "0123456789abcdef"
  config := { image := "ollama", env := ["OLLAMA_CONTEXT_LENGTH=4096"] }
  hostConfig := { networkMode := "llm" }
  running := true
  networks := OrdDict.empty.insert "llm" { aliases := ["ollama"] }

def boxEnv : LeverEnv where
  text :=
    { python :=
        { float := fun _ => none
          int := fun digits => if digits = "4096" then some 4096 else none
          str := fun _ => "" }
      fixed := fun _ => ""
      general := fun _ => ""
      repr := fun _ => "" }

def failingAt (failed : ℕ) : DockerWorld where
  daemon := { containers := OrdDict.empty.insert "broker-ollama" ollamaContainer }
  faults := fun call => if call = failed then some (.status 500 (by decide) .none) else none

theorem containerName_boxEnv : containerName boxEnv .ollama = "broker-ollama" := by
  unfold containerName
  exact if_pos stripped_empty

theorem failingAt_get? (failed : ℕ) :
    (failingAt failed).daemon.containers.get? (containerName boxEnv .ollama) =
      some ollamaContainer := by
  rw [containerName_boxEnv]
  rfl

/-- The replacement does not start, and is there for the retry. -/
theorem window_change_keeps_iff_failed_start :
    (failingAt 4).daemon.containers.get? (containerName boxEnv .ollama) = some ollamaContainer ∧
      KeepsServer boxEnv .ollama { contextLength := some 8192 } (failingAt 4) := by
  refine ⟨failingAt_get? 4, (window_change_keeps_iff boxEnv .ollama _ (failingAt_get? 4)).mpr
    (Or.inr ⟨?_, ?_⟩)⟩
  · rintro ⟨-, -, -, -, hcreate⟩
    cases hcreate
  · rintro ⟨-, fault, hfault, -⟩
    cases hfault

def verdictStatus : Except ApiError LeverReturn → Option StartStatus
  | .ok (.outcome verdict) => some verdict.status
  | _ => none

/-- The create fails after the removal. The verdict is transient, but no container is left, and the
retry finds none to recreate. -/
theorem failed_create_loses_server :
    let change := setContext boxEnv none .ollama { contextLength := some 8192 }
    (change.alone (failingAt 3)).map (fun ended =>
        (verdictStatus ended.1, (ended.2.daemon.containers.get? "broker-ollama").isSome)) =
      some (some .transient, false) ∧
    ((change.alone (failingAt 3)).bind fun ended =>
        change.alone (.healthy ended.2.daemon)).map (fun ended => verdictStatus ended.1) =
      some (some .permanent) := by
  simp only [setContext, dockerSetContext, containerName_boxEnv]
  decide +kernel

end BrokerParrot
