import Mathlib.Algebra.Order.BigOperators.Group.List
import BrokerParrot.Proof.Occupancy

/-!
# The box-slot arbiter

Whatever claims, finishes, requeues and sweeps interleave, the rows that run on a host never weigh
more than its budget, as long as the host's own claims pass the budget.
-/

namespace BrokerParrot

open List

variable {budget : ℤ} {host project : String} {db : Db} {row : NodeJob}

theorem one_le_gpuWeight (hbudget : 1 ≤ budget) (slots : Option GpuSlots) :
    1 ≤ gpuWeight budget slots := by
  rcases slots with _ | _ | _ | n
  · exact le_rfl
  · exact hbudget
  · change 1 ≤ (budget + 1).tdiv 2
    rw [Int.tdiv_eq_ediv_of_nonneg (by omega)]
    omega
  · exact le_min (le_max_right _ _) hbudget

def rowWeight (budget : ℤ) (row : NodeJob) : ℤ := gpuWeight budget row.gpuSlots

theorem runningWeight_eq (db : Db) :
    runningWeight db (some host) project budget =
      (occupants host project (rowWeight budget) db).sum := by
  rw [← map_runningHere]
  rfl

theorem one_le_of_mem_occupants (hbudget : 1 ≤ budget) {weight : ℤ}
    (hmem : weight ∈ occupants host project (rowWeight budget) db) : 1 ≤ weight := by
  rw [← map_runningHere, mem_map] at hmem
  obtain ⟨row, -, rfl⟩ := hmem
  exact one_le_gpuWeight hbudget row.gpuSlots

theorem length_runningHere_le (hbudget : 1 ≤ budget) :
    ((runningHere db (some host) project).length : ℤ) ≤
      runningWeight db (some host) project budget := by
  have hlength : (runningHere db (some host) project).length =
      (occupants host project (rowWeight budget) db).length := by
    rw [← map_runningHere, length_map]
  have hsum := card_nsmul_le_sum (occupants host project (rowWeight budget) db) 1
    fun weight hmem => one_le_of_mem_occupants hbudget hmem
  rw [runningWeight_eq, hlength]
  simpa using hsum

section

variable {d : Dialect}

theorem QueueOp.respects_rowWeight (op : QueueOp) : op.Respects (rowWeight budget) := by
  intro row after hslots _
  unfold rowWeight
  rw [hslots]

theorem runningWeight_of_subperm (hbudget : 1 ≤ budget) {after : Db}
    (hsub : (occupants host project (rowWeight budget) after).Subperm
      (occupants host project (rowWeight budget) db)) :
    runningWeight after (some host) project budget ≤
      runningWeight db (some host) project budget := by
  obtain ⟨middle, hperm, hsublist⟩ := hsub
  rw [runningWeight_eq, runningWeight_eq, ← hperm.sum_eq]
  refine hsublist.sum_le_sum ?_
  intro weight hmem
  have hone := one_le_of_mem_occupants hbudget hmem
  omega

variable {args : GpuClaim}

theorem GpuClaim.budget_eq (hhost : host ≠ "") (hargs : args.host = some host)
    (hmax : args.maxRunning = some budget) : args.budget = some budget := by
  simp [GpuClaim.budget, GpuClaim.hosted, orNull, hargs, hhost, hmax]

theorem fits_of_capability (hhost : host ≠ "") (hargs : args.host = some host)
    (hproject : args.project = project) (hmax : args.maxRunning = some budget)
    (hholds : (args.capability d db row).Holds) :
    runningWeight db (some host) project budget + gpuWeight budget row.gpuSlots ≤ budget := by
  obtain ⟨-, -, hgate, -⟩ := GpuClaim.capability_holds.mp hholds
  unfold GpuClaim.boxSlotGate at hgate
  rwa [GpuClaim.budget_eq hhost hargs hmax, Tri.holds_ofProp, hargs, hproject] at hgate

theorem runningWeight_claim (env : ClaimEnv) (hhost : host ≠ "") (hargs : args.host = some host)
    (hproject : args.project = project) (hmax : args.maxRunning = some budget)
    (hbound : runningWeight db (some host) project budget ≤ budget) :
    runningWeight (claimNextGpuJob d args env db).1 (some host) project budget ≤ budget := by
  rw [runningWeight_eq] at hbound ⊢
  rcases occupants_claim (rowWeight budget) d db env hargs hproject with
    hsame | ⟨row, hholds, hperm⟩
  · rwa [hsame]
  · have hfits := fits_of_capability hhost hargs hproject hmax hholds
    rw [runningWeight_eq] at hfits
    rwa [hperm.sum_eq, sum_cons, add_comm]

def QueueOp.WithBudget (host project : String) (budget : ℤ) (op : QueueOp) : Prop :=
  ∀ args env, op = .claimGpu args env → args.host = some host → args.project = project →
    args.maxRunning = some budget

theorem runningWeight_step {op : QueueOp} (hhost : host ≠ "") (hbudget : 1 ≤ budget)
    (hop : op.WithBudget host project budget)
    (hbound : runningWeight db (some host) project budget ≤ budget) :
    runningWeight (op.step d db) (some host) project budget ≤ budget := by
  by_cases hclaims : op.ClaimsHere host project
  · obtain ⟨args, env, rfl, hargs, hproject⟩ := hclaims
    exact runningWeight_claim env hhost hargs hproject (hop args env rfl hargs hproject) hbound
  · exact (runningWeight_of_subperm hbudget
      (occupants_subperm op.respects_rowWeight hclaims)).trans hbound

theorem runningWeight_run {history : List QueueOp} (hhost : host ≠ "") (hbudget : 1 ≤ budget)
    (hidle : runningHere db (some host) project = [])
    (hclaims : ∀ op ∈ history, op.WithBudget host project budget) :
    runningWeight (QueueOp.run d db history) (some host) project budget ≤ budget := by
  refine QueueOp.run_invariant
    (fun db => runningWeight db (some host) project budget ≤ budget) ?_ ?_
  · simp only [runningWeight, hidle, map_nil, sum_nil]
    omega
  · intro db op hmem hbound
    exact runningWeight_step hhost hbudget (hclaims op hmem) hbound

end

/-! ### The reaper -/

section

def boxMembers (rows : List RunningRow) (box : String × String) : List RunningRow :=
  rows.filter fun row => (row.claimedBy, row.project) = box

theorem boxGroups_concat (rows : List RunningRow) (row : RunningRow) :
    boxGroups (rows ++ [row]) =
      (boxGroups rows).insert (row.claimedBy, row.project)
        (((boxGroups rows).get? (row.claimedBy, row.project)).getD [] ++ [row]) := by
  unfold boxGroups
  rw [foldl_append]
  rfl

theorem getD_boxGroups (rows : List RunningRow) (box : String × String) :
    ((boxGroups rows).get? box).getD [] = boxMembers rows box := by
  induction rows using List.reverseRecOn with
  | nil => rfl
  | append_singleton rows row ih =>
    rw [boxGroups_concat]
    unfold boxMembers at ih ⊢
    by_cases hbox : (row.claimedBy, row.project) = box
    · subst hbox
      rw [OrdDict.get?_insert_self, Option.getD_some, ih]
      simp
    · rw [OrdDict.get?_insert_of_ne _ _ (Ne.symm hbox), ih]
      simp [hbox]

variable {rows : List RunningRow} {id : JobId}

theorem get?_boxGroups {box : String × String} {members : List RunningRow}
    (hget : (boxGroups rows).get? box = some members) : members = boxMembers rows box := by
  rw [← getD_boxGroups, hget, Option.getD_some]

theorem mem_of_mem_pickOverClaimVictims {capacity : ℤ} {tie : ℚ}
    (hmem : id ∈ pickOverClaimVictims rows capacity tie) : ∃ row ∈ rows, row.id = id := by
  obtain ⟨row, hdropped, hid⟩ := mem_map.mp hmem
  exact ⟨row, mem_mergeSort.mp (mem_of_mem_drop hdropped), hid⟩

theorem mem_overClaimVictims {capacity : String → String → Option ℤ}
    (hmem : id ∈ overClaimVictims rows capacity) :
    ∃ row ∈ rows, row.id = id ∧ ∃ cap, capacity row.claimedBy row.project = some cap ∧
      cap < (boxMembers rows (row.claimedBy, row.project)).length := by
  obtain ⟨⟨box, members⟩, hgroup, hvictim⟩ := mem_flatMap.mp hmem
  have hmembers := get?_boxGroups (OrdDict.mem_entries.mp hgroup)
  subst hmembers
  split at hvictim
  · cases hvictim
  · rename_i cap hcap
    split_ifs at hvictim with hfits
    · cases hvictim
    · obtain ⟨row, hrow, hid⟩ := mem_of_mem_pickOverClaimVictims hvictim
      obtain ⟨hrows, hbox⟩ := mem_filter.mp hrow
      have hkey : (row.claimedBy, row.project) = box := of_decide_eq_true hbox
      subst hkey
      exact ⟨row, hrows, hid, cap, hcap, not_le.mp hfits⟩

theorem runningRow_eq_some {queue : Queue} {running : RunningRow}
    (hrow : runningRow queue id row = some running) :
    running.id = id ∧ row.claimedBy = some running.claimedBy ∧ row.project = running.project := by
  unfold runningRow at hrow
  split at hrow
  · rename_i host hclaim
    split_ifs at hrow
    cases hrow
    exact ⟨rfl, hclaim, rfl⟩
  · cases hrow

theorem length_boxMembers (host project : String) (db : Db) :
    (boxMembers (runningRows .gpu db) (host, project)).length =
      (runningHere db (some host) project).length := by
  unfold boxMembers runningRows runningHere Table.collect OrdDict.collect
  rw [filter_filterMap, length_filterMap_eq_countP, length_filterMap_eq_countP]
  refine countP_congr ?_
  rintro ⟨id, row⟩ -
  simp only [runningHere_iff]
  unfold runningRow
  cases hclaim : row.claimedBy with
  | none => simp
  | some claimer => split_ifs <;> simp_all

theorem reapOverClaimedBoxes_keeps (hcap : advertisedConcurrency .gpu db host project = some budget)
    (hlength : ((runningHere db (some host) project).length : ℤ) ≤ budget)
    (hget : db.jobs.get? id = some row) (hhere : RunningHere (some host) project row) :
    (reapOverClaimedBoxes .gpu db).jobs.get? id = some row := by
  unfold reapOverClaimedBoxes
  rw [get?_recoverAll_of_spared, hget]
  intro _ _ _ hvictim
  -- The box of a victim runs more rows than it advertises, and the box of this row is the host.
  obtain ⟨running, hrows, hid, cap, hadvertised, hover⟩ := mem_overClaimVictims hvictim
  obtain ⟨key, hseen⟩ := Table.mem_collect.mp hrows
  obtain ⟨read, hread, hview⟩ := Option.bind_eq_some_iff.mp hseen
  obtain ⟨hkey, hclaim, hproject⟩ := runningRow_eq_some hview
  have hsame : read = row := by
    rw [← hkey, hid, hget] at hread
    exact (Option.some.inj hread).symm
  subst hsame
  obtain ⟨-, -, hhost, hrowProject⟩ := runningHere_iff.mp hhere
  have hbox : running.claimedBy = host := Option.mem_unique hclaim hhost
  have hproj : running.project = project := hproject.symm.trans hrowProject
  rw [hbox, hproj] at hadvertised hover
  rw [length_boxMembers] at hover
  obtain rfl := Option.mem_unique hcap hadvertised
  omega

end

/-- **The box-slot arbiter.** Claims that pass the budget never make the running rows weigh more,
and the reaper takes none of them. -/
theorem box_within_budget (d : Dialect) (host project : String) (hhost : host ≠ "") (budget : ℤ)
    (hbudget : 1 ≤ budget) (db : Db) (hidle : runningHere db (some host) project = [])
    (history : List QueueOp) (hclaims : ∀ op ∈ history, op.WithBudget host project budget) :
    let after := QueueOp.run d db history
    runningWeight after (some host) project budget ≤ budget ∧
      ((runningHere after (some host) project).length : ℤ) ≤ budget ∧
      (advertisedConcurrency .gpu after host project = some budget →
        ∀ id row, after.jobs.get? id = some row → RunningHere (some host) project row →
          (reapOverClaimedBoxes .gpu after).jobs.get? id = some row) := by
  intro after
  have hweight : runningWeight after (some host) project budget ≤ budget :=
    runningWeight_run hhost hbudget hidle hclaims
  have hlength : ((runningHere after (some host) project).length : ℤ) ≤ budget :=
    (length_runningHere_le hbudget).trans hweight
  refine ⟨hweight, hlength, ?_⟩
  intro hcap id row hget hhere
  exact reapOverClaimedBoxes_keeps hcap hlength hget hhere

/-- Three queued rows, one of them as wide as the box, and a budget of two: the half and the plain
row fill the box, the wide one waits. -/
theorem box_within_budget_two :
    let row (node : String) (slots : Option GpuSlots) : NodeJob :=
      { runId := "run", nodeId := node, nodeModule := "m", queue := .gpu, project := "",
        status := .queued, gpuSlots := slots, createdAt := 0 }
    let db : Db :=
      { jobs := Table.ofRows [row "a" (some .half), row "b" (some .all), row "c" none],
        runs := OrdDict.empty.insert "run" { workflowName := "w", status := .running } }
    let args : GpuClaim :=
      { host := some "box", maxRunning := some 2,
        kindCaps := some (OrdDict.empty.insert "ollama" 4) }
    let after := QueueOp.run .sqlite db
      [.claimGpu args {}, .claimGpu args {}, .claimGpu args {}]
    (runningHere after (some "box") "").length = 2 ∧
      runningWeight after (some "box") "" 2 ≤ 2 := by
  intro row db args after
  have hfull : (runningHere after (some "box") "").length = 2 := by decide +kernel
  refine ⟨hfull, (box_within_budget .sqlite "box" "" (by decide) 2 (by decide) db ?_
    [.claimGpu args {}, .claimGpu args {}, .claimGpu args {}] ?_).1⟩
  · decide +kernel
  · simp [QueueOp.WithBudget, args]

end BrokerParrot
