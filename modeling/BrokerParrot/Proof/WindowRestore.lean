import BrokerParrot.Lib.Override
import BrokerParrot.Proof.CommandLine

/-!
# Giving the operator's window back

A container's window stands on its command line or in its environment, and an override is a write
there that remembers the number that was read before. What the operator wrote comes back with it if
it was written as the engine writes it: as the plain number, once in the environment, and wherever
the flag stands on the command line.
-/

namespace BrokerParrot

open List

namespace ServerContext

structure ReadsBack (text : PyText) : Prop where
  plain : ∀ number : ℤ, 0 < number → text.int (toString number) = some number
  empty : text.int "" = none
  flag : text.int contextFlag = none

/-! ### A plan that is carried out -/

def onto (plan : ContextPlan) (inspected : Container) : Container :=
  { inspected with config := plan.payload.config, hostConfig := plan.payload.hostConfig }

/-- The container after the plan for a request, or as it was when there is nothing to do. -/
def applied (text : LeverText) (kind : ServerKind) (inspected : Container)
    (request : WindowRequest) : Container :=
  match planContext text inspected kind request with
  | none => inspected
  | some plan => onto plan inspected

def overridden (text : LeverText) (kind : ServerKind) (inspected : Container)
    (windows : List ℤ) : Container :=
  windows.foldl
    (fun inspected window => applied text kind inspected { contextLength := some window }) inspected

def restored (text : LeverText) (kind : ServerKind) (inspected : Container)
    (windows : List ℤ) : Container :=
  applied text kind (overridden text kind inspected windows) { contextLength := none }

/-! ### The window as a setting of a store -/

def setting (kind : ServerKind) (inspected : Container) : List String :=
  match kind with
  | .vllm => inspected.config.cmd
  | .ollama => inspected.config.env

def windowStore (text : PyText) (kind : ServerKind) :
    Override.Store (List String) (Option ℤ) where
  read := match kind with
    | .vllm => argvContext text
    | .ollama => envContext text
  write := fun tokens window => match kind with
    | .vllm => argvWithContext tokens (window.map toString)
    | .ollama => envWithContext tokens (window.map toString)

def remembered (text : PyText) (inspected : Container) : Option (Option ℤ) :=
  (recordedDefault inspected).map (intOrNone text)

def state (text : PyText) (kind : ServerKind) (inspected : Container) :
    Override.Kept (List String) (Option ℤ) :=
  ⟨setting kind inspected, remembered text inspected⟩

section

variable {text : LeverText} {kind : ServerKind} {inspected : Container}

theorem read_setting :
    (windowStore text.python kind).read (setting kind inspected) =
      configuredContext text.python inspected kind := by
  cases kind <;> rfl

theorem intOrNone_pos {text : PyText} {raw : String} {window : ℤ}
    (hwindow : intOrNone text raw = some window) : 0 < window :=
  of_decide_eq_true (Option.filter_eq_some_iff.mp hwindow).2

theorem intOrNone_toString {text : PyText} (hreads : ReadsBack text) {window : ℤ}
    (hpos : 0 < window) : intOrNone text (toString window) = some window := by
  unfold intOrNone
  rw [hreads.plain window hpos]
  simp [hpos]

theorem intOrNone_empty {text : PyText} (hreads : ReadsBack text) : intOrNone text "" = none := by
  unfold intOrNone
  rw [hreads.empty]
  rfl

theorem poolChange_window (window : Option ℤ) :
    poolChange text.python inspected kind { contextLength := window } = none := by
  cases kind <;> rfl

theorem seqsChange_window (window : Option ℤ) :
    seqsChange text.python inspected kind { contextLength := window } = none := by
  cases kind <;> rfl

variable {window : Option ℤ}

theorem applied_of_eq (hsame : windowTarget text.python inspected kind { contextLength := window } =
      configuredContext text.python inspected kind) :
    applied text kind inspected { contextLength := window } = inspected := by
  unfold applied planContext
  rw [if_pos ⟨hsame, poolChange_window window, seqsChange_window window⟩]

theorem planLabels_window
    (hother : windowTarget text.python inspected kind { contextLength := window } ≠
      configuredContext text.python inspected kind) :
    planLabels text inspected kind { contextLength := window } =
      if window.isNone then inspected.config.labels.erase defaultLabel
      else remember inspected.config.labels defaultLabel
        ((configuredContext text.python inspected kind).map toString) := by
  unfold planLabels
  dsimp only
  rw [poolChange_window, seqsChange_window, if_neg hother]
  rfl

theorem planArgv_window
    (hother : windowTarget text.python inspected .vllm { contextLength := window } ≠
      configuredContext text.python inspected .vllm) :
    planArgv text inspected { contextLength := window } =
      argvWithContext inspected.config.cmd
        ((windowTarget text.python inspected .vllm { contextLength := window }).map toString) := by
  unfold planArgv
  dsimp only
  rw [poolChange_window, seqsChange_window, if_neg hother]

theorem applied_of_ne
    (hother : windowTarget text.python inspected kind { contextLength := window } ≠
      configuredContext text.python inspected kind) :
    setting kind (applied text kind inspected { contextLength := window }) =
        (windowStore text.python kind).write (setting kind inspected)
          (windowTarget text.python inspected kind { contextLength := window }) ∧
      (applied text kind inspected { contextLength := window }).config.labels =
        if window.isNone then inspected.config.labels.erase defaultLabel
        else remember inspected.config.labels defaultLabel
          ((configuredContext text.python inspected kind).map toString) := by
  unfold applied planContext
  rw [if_neg fun hall => hother hall.1, ← planLabels_window hother]
  cases kind with
  | vllm => exact ⟨planArgv_window hother, rfl⟩
  | ollama => exact ⟨rfl, rfl⟩

theorem envContext_pos {text : PyText} {env : List String} {window : ℤ}
    (hwindow : envContext text env = some window) : 0 < window := by
  fun_induction envContext text env with
  | case1 => exact nomatch hwindow
  | case2 => exact intOrNone_pos hwindow
  | case3 item rest name value hitem hname ih => exact ih hwindow
  | case4 item rest name hitem ih => exact ih hwindow

theorem configuredContext_pos {window : ℤ}
    (hwindow : configuredContext text.python inspected kind = some window) : 0 < window := by
  cases kind with
  | vllm =>
    obtain ⟨raw, -, hraw⟩ := Option.bind_eq_some_iff.mp hwindow
    exact intOrNone_pos hraw
  | ollama => exact envContext_pos hwindow

theorem intOrNone_label (hreads : ReadsBack text.python) :
    intOrNone text.python (((configuredContext text.python inspected kind).map toString).getD "") =
      configuredContext text.python inspected kind := by
  cases hcurrent : configuredContext text.python inspected kind with
  | none => exact intOrNone_empty hreads
  | some => exact intOrNone_toString hreads (configuredContext_pos hcurrent)

theorem remembered_remember (hreads : ReadsBack text.python) {after : Container}
    (hlabels : after.config.labels = remember inspected.config.labels defaultLabel
      ((configuredContext text.python inspected kind).map toString)) :
    remembered text.python after =
      some ((remembered text.python inspected).getD
        (configuredContext text.python inspected kind)) := by
  unfold remembered recordedDefault
  rw [hlabels]
  unfold remember
  cases hlabel : inspected.config.labels.get? defaultLabel with
  | none =>
    rw [if_neg (by simp), OrdDict.get?_insert_self]
    exact congrArg some (intOrNone_label hreads)
  | some =>
    rw [if_pos (by simp), hlabel]
    rfl

theorem state_override (hreads : ReadsBack text.python) (window : ℤ) :
    state text.python kind (applied text kind inspected { contextLength := some window }) =
      Override.set (windowStore text.python kind) (state text.python kind inspected)
        (some window) := by
  unfold Override.set state
  rw [read_setting]
  have htarget : windowTarget text.python inspected kind { contextLength := some window } =
      some window := rfl
  by_cases hsame : configuredContext text.python inspected kind = some window
  · rw [if_pos hsame, applied_of_eq (htarget.trans hsame.symm)]
  · have hother : windowTarget text.python inspected kind { contextLength := some window } ≠
        configuredContext text.python inspected kind := fun heq => hsame (heq.symm.trans htarget)
    obtain ⟨hsetting, hlabels⟩ := applied_of_ne hother
    rw [if_neg hsame, hsetting, remembered_remember hreads hlabels, htarget]

theorem state_restore :
    state text.python kind (applied text kind inspected { contextLength := none }) =
      Override.restore (windowStore text.python kind) (state text.python kind inspected) := by
  unfold Override.restore state
  rw [read_setting]
  cases hlabel : recordedDefault inspected with
  | none =>
    have hsame : windowTarget text.python inspected kind { contextLength := none } =
        configuredContext text.python inspected kind := by
      unfold windowTarget
      rw [hlabel]
    rw [applied_of_eq hsame]
    simp [remembered, hlabel]
  | some label =>
    have htarget : windowTarget text.python inspected kind { contextLength := none } =
        intOrNone text.python label := by
      unfold windowTarget
      rw [hlabel]
    have hkept : remembered text.python inspected = some (intOrNone text.python label) := by
      unfold remembered
      rw [hlabel]
      rfl
    rw [hkept]
    dsimp only
    split
    next hsame => rw [applied_of_eq (htarget.trans hsame.symm), hkept]
    next hother =>
      have hne : windowTarget text.python inspected kind { contextLength := none } ≠
          configuredContext text.python inspected kind := fun heq => hother (heq ▸ htarget)
      obtain ⟨hsetting, hlabels⟩ := applied_of_ne hne
      rw [hsetting, htarget]
      unfold remembered recordedDefault
      rw [hlabels]
      simp [OrdDict.get?_erase_self]

theorem state_restored (hreads : ReadsBack text.python) (windows : List ℤ) :
    state text.python kind (restored text kind inspected windows) =
      Override.restore (windowStore text.python kind)
        ((windows.map some).foldl (Override.set (windowStore text.python kind))
          (state text.python kind inspected)) := by
  unfold restored
  rw [state_restore]
  congr 1
  unfold overridden
  induction windows generalizing inspected with
  | nil => rfl
  | cons window rest ih =>
    rw [foldl_cons, ih, map_cons, foldl_cons, state_override hreads]

end

/-! ### The environment -/

section

def contextEntries (env : List String) : List String :=
  env.filter fun item => (partitionSign item).1 = contextEnv

def contextEntry (value : String) : String := contextEnv ++ "=" ++ value

theorem partitionSign_entry (value : String) :
    partitionSign (contextEntry value) = (contextEnv, some value) := by
  have htext : (contextEntry value).toList = contextEnv.toList ++ '=' :: value.toList := by
    simp [contextEntry]
  have hname : ∀ char ∈ contextEnv.toList, decide (char ≠ '=') = true :=
    all_eq_true.mp (by decide)
  unfold partitionSign
  rw [htext, takeWhile_append_of_pos hname, dropWhile_append_of_pos hname]
  simp

theorem envWithContext_eq (env : List String) (value : Option String) :
    envWithContext env value =
      env.filter (fun item => (partitionSign item).1 ≠ contextEnv) ++
        (value.map contextEntry).toList :=
  rfl

theorem contextEntries_write (env : List String) (value : Option String) :
    contextEntries (envWithContext env value) = (value.map contextEntry).toList := by
  unfold contextEntries
  rw [envWithContext_eq, filter_append, filter_filter]
  cases value <;> simp [partitionSign_entry]

theorem envWithContext_write (env : List String) (value later : Option String) :
    envWithContext (envWithContext env value) later = envWithContext env later := by
  cases value <;> simp [partitionSign_entry, envWithContext_eq]

theorem envContext_eq (text : PyText) (env : List String) :
    envContext text env = envContext text (contextEntries env) := by
  unfold contextEntries
  induction env with
  | nil => rfl
  | cons item rest ih =>
    rcases hitem : partitionSign item with ⟨name, value⟩
    by_cases hname : name = contextEnv
    · cases value <;> simp [envContext, hitem, hname, ih]
    · rw [filter_cons_of_neg (by simp [hitem, hname]), ← ih]
      cases value <;> simp [envContext, hitem, hname]

theorem envContext_entry (text : PyText) (value : String) :
    envContext text [contextEntry value] = intOrNone text value := by
  unfold envContext
  rw [partitionSign_entry]
  exact if_pos rfl

theorem envWithContext_perm_iff (env : List String) (value : Option String) :
    (envWithContext env value).Perm env ↔ contextEntries env = (value.map contextEntry).toList := by
  constructor
  · intro hperm
    have hentries : ((value.map contextEntry).toList).Perm (contextEntries env) :=
      contextEntries_write env value ▸ hperm.filter _
    cases value with
    | none => exact nil_perm.mp hentries
    | some => exact (singleton_perm.mp hentries).symm
  · intro hentries
    rw [envWithContext_eq, ← hentries]
    have hsplit := filter_append_perm
      (fun item => decide ((partitionSign item).1 ≠ contextEnv)) env
    simpa [contextEntries] using hsplit

theorem envContext_of_perm {text : PyText} (hreads : ReadsBack text) {env : List String}
    {window : Option ℤ} (hvalid : ∀ tokens, window = some tokens → 0 < tokens)
    (hperm : (envWithContext env (window.map toString)).Perm env) :
    envContext text env = window := by
  rw [envContext_eq, (envWithContext_perm_iff _ _).mp hperm]
  cases window with
  | none => rfl
  | some tokens =>
    exact (envContext_entry _ _).trans (intOrNone_toString hreads (hvalid tokens rfl))

end

/-! ### The command line -/

section

variable {text : PyText} {cmd : List String} {window : ℤ}

theorem argvContext_write (hreads : ReadsBack text) (hfree : ¬ Stuck contextFlag cmd)
    (hpos : 0 < window) :
    argvContext text (argvWithContext cmd (some (toString window))) = some window := by
  unfold argvContext argvWithContext
  rw [argvFlag_write hfree]
  exact intOrNone_toString hreads hpos

theorem argvContext_of_absent (habsent : flagValues contextFlag cmd = []) :
    argvContext text cmd = none := by
  unfold argvContext
  rw [argvFlag_eq, habsent]
  rfl

theorem argvContext_of_write_eq (hreads : ReadsBack text) {window : Option ℤ}
    (hvalid : ∀ tokens, window = some tokens → 0 < tokens)
    (hsame : argvWithContext cmd (window.map toString) = cmd) : argvContext text cmd = window := by
  obtain ⟨hvalues, habsent⟩ := (write_eq_self_iff _).mp hsame
  cases hgiven : flagValues contextFlag cmd with
  | nil =>
    rw [argvContext_of_absent hgiven]
    exact (Option.map_eq_none_iff.mp (habsent hgiven)).symm
  | cons first =>
    have hfirst := hvalues first (hgiven ▸ mem_cons_self)
    obtain ⟨tokens, hwindow, htokens⟩ := Option.map_eq_some_iff.mp hfirst.symm
    unfold argvContext
    rw [argvFlag_eq, hgiven, hwindow, head?_cons, Option.bind_some, ← htokens]
    exact intOrNone_toString hreads (hvalid tokens hwindow)

theorem write_read_eq_iff :
    argvWithContext cmd ((argvContext text cmd).map toString) = cmd ↔
      ∀ value ∈ flagValues contextFlag cmd, some value = (argvContext text cmd).map toString := by
  unfold argvWithContext
  rw [write_eq_self_iff]
  refine and_iff_left fun habsent => ?_
  rw [argvContext_of_absent habsent]
  rfl

/-! ### A command line that ends in the flag -/

def Displaced (token : String) (cmd : List String) : Prop :=
  ∃ line, pieces contextFlag cmd = line ++ [.other token] ∧ line.filterMap Piece.value? ≠ []

def EndsIn (token : String) (cmd : List String) : Prop :=
  ∃ line, pieces contextFlag cmd = line ++ [.other token]

variable {token : String}

theorem Displaced.endsIn (hdisplaced : Displaced token cmd) : EndsIn token cmd := by
  obtain ⟨line, hpieces, -⟩ := hdisplaced
  exact ⟨line, hpieces⟩

theorem displaced_of_stuck (hstuck : Stuck contextFlag cmd) (hpos : 0 < window) :
    Displaced (toString window) (argvWithContext cmd (some (toString window))) := by
  obtain ⟨hvalues, hend⟩ := hstuck
  obtain ⟨front, hcmd⟩ := getLast?_eq_some_iff.mp hend
  refine ⟨front.map Piece.other ++ [.bare contextFlag], ?_, by simp [Piece.value?]⟩
  unfold argvWithContext
  rw [pieces_add_stuck hvalues hcmd (assignedValue_toString (by decide) hpos), append_assoc]
  rfl

theorem Displaced.write (hdisplaced : Displaced token cmd) (value : String) :
    Displaced token (argvWithContext cmd (some value)) := by
  obtain ⟨line, hpieces, hvalues⟩ := hdisplaced
  have hpresent : flagValues contextFlag cmd ≠ [] := by
    unfold flagValues
    rw [hpieces, filterMap_append]
    exact append_ne_nil_of_left_ne_nil hvalues _
  refine ⟨line.filterMap (Piece.set (some value)), ?_, ?_⟩
  · unfold argvWithContext
    rw [pieces_replace value hpresent, hpieces, filterMap_append]
    rfl
  · rw [values_set_some]
    exact fun hnone => hvalues (map_eq_nil_iff.mp hnone)

theorem Displaced.endsIn_write (hdisplaced : Displaced token cmd) (value : Option String) :
    EndsIn token (argvWithContext cmd value) := by
  cases value with
  | none =>
    obtain ⟨line, hpieces, -⟩ := hdisplaced
    refine ⟨line.filterMap (Piece.set none), ?_⟩
    unfold argvWithContext
    rw [pieces_remove, hpieces, filterMap_append]
    rfl
  | some value => exact (hdisplaced.write value).endsIn

theorem not_endsIn_of_stuck (hstuck : Stuck contextFlag cmd) (hne : token ≠ contextFlag) :
    ¬ EndsIn token cmd := by
  rintro ⟨line, hpieces⟩
  obtain ⟨hvalues, hend⟩ := hstuck
  have hlast := congrArg List.getLast? hpieces
  rw [pieces_of_absent hvalues, getLast?_map, hend, getLast?_concat] at hlast
  exact hne (Piece.other.inj (Option.some.inj hlast)).symm

end

/-! ### Overrides and a restore -/

def SameSetting (kind : ServerKind) (after before : Container) : Prop :=
  match kind with
  | .vllm => after.config.cmd = before.config.cmd
  | .ollama => after.config.env.Perm before.config.env

/-- No earlier override is recorded, or the recorded value reads as what is configured now. -/
def RecordAgrees (text : PyText) (kind : ServerKind) (inspected : Container) : Prop :=
  ∀ label, recordedDefault inspected = some label →
    intOrNone text label = configuredContext text inspected kind

/-- The flag is never bare on the command line, and every value of it is the plain number. In the
environment the only entry is the plain number's, or there is none. -/
def WrittenPlainly (text : PyText) (kind : ServerKind) (inspected : Container) : Prop :=
  match kind with
  | .vllm =>
    (∀ value ∈ flagValues contextFlag inspected.config.cmd,
        some value = (configuredContext text inspected .vllm).map toString) ∧
      ¬ Stuck contextFlag inspected.config.cmd
  | .ollama =>
    contextEntries inspected.config.env =
      (((configuredContext text inspected .ollama).map toString).map contextEntry).toList

section

variable {text : LeverText} {inspected : Container} {windows : List ℤ} {cmd : List String}

theorem recordAgrees_iff (kind : ServerKind) :
    (∀ window, remembered text.python inspected = some window →
        window = configuredContext text.python inspected kind) ↔
      RecordAgrees text.python kind inspected := by
  unfold RecordAgrees remembered
  cases recordedDefault inspected <;> simp

theorem remembered_pos {window : Option ℤ} (hkept : remembered text.python inspected = some window)
    (tokens : ℤ) (hwindow : window = some tokens) : 0 < tokens := by
  obtain ⟨label, -, hlabel⟩ := Option.map_eq_some_iff.mp hkept
  exact intOrNone_pos (hlabel.trans hwindow)

theorem forall_map_some_iff (current : Option ℤ) :
    (∀ value ∈ windows.map some, value = current) ↔ ∀ window ∈ windows, current = some window := by
  rw [forall_mem_map]
  exact forall₂_congr fun _ _ => eq_comm

def Settable (value : Option ℤ) : Prop := ∃ window : ℤ, 0 < window ∧ value = some window

theorem settable_windows (hpos : ∀ window ∈ windows, 0 < window) :
    ∀ value ∈ windows.map some, Settable value := by
  intro value hvalue
  obtain ⟨window, hwindow, rfl⟩ := mem_map.mp hvalue
  exact ⟨window, hpos window hwindow, rfl⟩

theorem lawful_cmd (hreads : ReadsBack text.python) (hfree : ¬ Stuck contextFlag cmd) :
    Override.Lawful (windowStore text.python .vllm) cmd Settable where
  read_write := by
    rintro _ ⟨window, hpos, rfl⟩
    exact argvContext_write hreads hfree hpos
  write_write := by
    rintro _ later ⟨window, -, rfl⟩
    exact write_write hfree _ _

theorem lawful_env (hreads : ReadsBack text.python) (env : List String) :
    Override.Lawful (windowStore text.python .ollama) env Settable where
  read_write := by
    rintro _ ⟨window, hpos, rfl⟩
    change envContext text.python (envWithContext env (some (toString window))) = some window
    rw [envContext_eq, contextEntries_write]
    exact (envContext_entry _ _).trans (intOrNone_toString hreads hpos)
  write_write := fun _ _ _ => envWithContext_write _ _ _

theorem restored_setting_iff (hreads : ReadsBack text.python) {kind : ServerKind}
    (hpos : ∀ window ∈ windows, 0 < window)
    (hlawful : Override.Lawful (windowStore text.python kind) (setting kind inspected) Settable)
    {same : List String → List String → Prop}
    (hrefl : same (setting kind inspected) (setting kind inspected))
    (hsame : ∀ value, remembered text.python inspected = some value →
      same ((windowStore text.python kind).write (setting kind inspected) value)
        (setting kind inspected) →
      (windowStore text.python kind).read (setting kind inspected) = value) :
    same (setting kind (restored text kind inspected windows)) (setting kind inspected) ↔
      RecordAgrees text.python kind inspected ∧
        ((∀ window ∈ windows, configuredContext text.python inspected kind = some window) ∨
          same ((windowStore text.python kind).write (setting kind inspected)
            (configuredContext text.python inspected kind)) (setting kind inspected)) := by
  have hiff := Override.restored_iff hlawful hrefl hsame (settable_windows hpos)
  rw [read_setting, recordAgrees_iff, forall_map_some_iff] at hiff
  rw [← hiff]
  change same (state text.python kind (restored text kind inspected windows)).store _ ↔ _
  rw [state_restored hreads]
  rfl

theorem displaced_overridden (hstuck : Stuck contextFlag cmd) {window : ℤ} (hpos : 0 < window)
    (text : LeverText) (kept : Option (Option ℤ)) (rest : List ℤ) :
    Displaced (toString window)
      (((window :: rest).map some).foldl (Override.set (windowStore text.python .vllm))
        ⟨cmd, kept⟩).store := by
  have hrest : ∀ value ∈ rest.map some, ∃ later : ℤ, value = some later := by simp
  have hnone : argvContext text.python cmd ≠ some window := by
    rw [argvContext_of_absent hstuck.1]
    simp
  refine Override.store_foldl_set (fun cmd value hcmd hvalue => ?_) hrest _ ?_
  · obtain ⟨later, rfl⟩ := hvalue
    exact hcmd.write _
  · rw [Override.store_set_of_ne hnone]
    exact displaced_of_stuck hstuck hpos

variable (hreads : ReadsBack text.python)

include hreads

theorem cmd_ne_of_stuck (hne : windows ≠ []) (hpos : ∀ window ∈ windows, 0 < window)
    (hstuck : Stuck contextFlag inspected.config.cmd) :
    (restored text .vllm inspected windows).config.cmd ≠ inspected.config.cmd := by
  obtain ⟨window, rest, rfl⟩ := exists_cons_of_ne_nil hne
  have hwindow := hpos window mem_cons_self
  have hdisplaced :=
    displaced_overridden hstuck hwindow text (remembered text.python inspected) rest
  have hends : EndsIn (toString window)
      (state text.python .vllm (restored text .vllm inspected (window :: rest))).store := by
    rw [state_restored hreads]
    exact Override.store_restore _ hdisplaced.endsIn fun _ _ => hdisplaced.endsIn_write _
  intro hsame
  exact not_endsIn_of_stuck hstuck (toString_ne_flag (by decide) hwindow) (hsame ▸ hends)

theorem restored_cmd_iff (hne : windows ≠ []) (hpos : ∀ window ∈ windows, 0 < window) :
    (restored text .vllm inspected windows).config.cmd = inspected.config.cmd ↔
      RecordAgrees text.python .vllm inspected ∧
        ((∀ window ∈ windows, configuredContext text.python inspected .vllm = some window) ∨
          WrittenPlainly text.python .vllm inspected) := by
  by_cases hstuck : Stuck contextFlag inspected.config.cmd
  · refine iff_of_false (cmd_ne_of_stuck hreads hne hpos hstuck) ?_
    rintro ⟨-, hall | hplain⟩
    · obtain ⟨window, hwindow⟩ := exists_mem_of_ne_nil windows hne
      exact nomatch (argvContext_of_absent hstuck.1).symm.trans (hall window hwindow)
    · exact hplain.2 hstuck
  · have hiff := restored_setting_iff hreads hpos (lawful_cmd hreads hstuck) rfl
      fun value hkept hsame => argvContext_of_write_eq hreads (remembered_pos hkept) hsame
    refine hiff.trans (and_congr_right fun _ => or_congr_right ?_)
    exact write_read_eq_iff.trans (and_iff_left hstuck).symm

theorem restored_env_iff (hpos : ∀ window ∈ windows, 0 < window) :
    ((restored text .ollama inspected windows).config.env).Perm inspected.config.env ↔
      RecordAgrees text.python .ollama inspected ∧
        ((∀ window ∈ windows, configuredContext text.python inspected .ollama = some window) ∨
          WrittenPlainly text.python .ollama inspected) := by
  have hiff := restored_setting_iff hreads hpos
    (lawful_env hreads inspected.config.env) (Perm.refl _)
    fun value hkept hperm => envContext_of_perm hreads (remembered_pos hkept) hperm
  refine hiff.trans (and_congr_right fun _ => or_congr_right ?_)
  exact envWithContext_perm_iff _ _

end

/-- **Overrides and a restore.** A request for the operator's own window restores the command line,
or the environment up to its order, if and only if no other value was remembered before, and the
overrides changed nothing or the window is written plainly. -/
theorem window_restored_iff (text : LeverText) (hreads : ReadsBack text.python)
    (kind : ServerKind) (inspected : Container) (windows : List ℤ) (hne : windows ≠ [])
    (hpos : ∀ window ∈ windows, 0 < window) :
    SameSetting kind (restored text kind inspected windows) inspected ↔
      RecordAgrees text.python kind inspected ∧
        ((∀ window ∈ windows, configuredContext text.python inspected kind = some window) ∨
          WrittenPlainly text.python kind inspected) := by
  cases kind with
  | vllm => exact restored_cmd_iff hreads hne hpos
  | ollama => exact restored_env_iff hreads hpos

def decimalInt (raw : String) : Option ℤ :=
  if raw.toList ≠ [] ∧ raw.toList.all Char.isDigit then
    some (Nat.ofDigitChars 10 raw.toList 0)
  else
    none

def decimalText : LeverText where
  python := { float := fun _ => none, int := decimalInt, str := fun _ => "" }
  fixed := fun _ => ""
  general := fun _ => ""
  repr := fun _ => ""

theorem readsBack_decimalText : ReadsBack decimalText.python where
  plain := by
    intro window hpos
    have hdigits : (toString window).toList.all Char.isDigit = true :=
      all_eq_true.mpr (digits_of_pos hpos)
    obtain ⟨number, rfl⟩ := Int.eq_ofNat_of_zero_le hpos.le
    have htext : (toString (number : ℤ)).toList = Nat.toDigits 10 number := Nat.toList_repr
    change decimalInt _ = _
    unfold decimalInt
    rw [if_pos ⟨by rw [htext]; exact Nat.toDigits_ne_nil, hdigits⟩, htext,
      Nat.ofDigitChars_toDigits (by decide) (by decide)]
  empty := by decide
  flag := by decide

def serverWith (tokens : List String) : Container where
  id := ""
  config := { image := "vllm", cmd := tokens }

/-- A plain window comes back from two overrides. -/
theorem window_restored_iff_plain :
    (restored decimalText .vllm (serverWith ["--max-model-len", "4096"]) [8192, 16384]).config.cmd =
      ["--max-model-len", "4096"] :=
  (window_restored_iff decimalText readsBack_decimalText .vllm
    (serverWith ["--max-model-len", "4096"]) [8192, 16384] (by decide) (by decide)).mpr
      ⟨fun _ hlabel => absurd hlabel (Option.some_ne_none _).symm,
        Or.inr ⟨by decide, fun hstuck => absurd hstuck.1 (by decide)⟩⟩

/-- A window that the operator wrote as `8k` is gone after an override and a restore, and of two
values that they gave the flag both come back as the first. -/
theorem unreadable_window_lost :
    (restored decimalText .vllm (serverWith ["--max-model-len", "8k"]) [8192]).config.cmd = [] ∧
      (restored decimalText .vllm
        (serverWith ["--max-model-len", "4096", "--max-model-len=8192"]) [16384]).config.cmd =
          ["--max-model-len", "4096", "--max-model-len=4096"] := by
  decide

end ServerContext

end BrokerParrot
