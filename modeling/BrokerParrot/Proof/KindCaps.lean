import BrokerParrot.Proof.Occupancy

/-!
# The per-kind law

Every row a claim takes under the law is stamped with a serving kind, and it is the kind the claim
counted. For each kind the stamped rows that run on the host, together with those that carry no
stamp, stay within the cap of the kind, unless the unstamped rows alone already exceed it.
-/

namespace BrokerParrot

open List

variable {d : Dialect} {row : NodeJob} {args : GpuClaim} {before after : List (Option String)}

def capOfKind (caps : OrdDict String ℤ) (kind : String) : ℤ := (caps.get? kind).getD 1

def stampedCount (db : Db) (host project kind : String) : ℤ :=
  ((runningHere db (some host) project).filter fun row => row.resolvedServer = some kind).length

def unstampedCount (db : Db) (host project : String) : ℤ :=
  ((runningHere db (some host) project).filter fun row => row.resolvedServer = none).length

section

variable {db : Db} {host project kind : String}

def stamps (host project : String) (db : Db) : List (Option String) :=
  occupants host project NodeJob.resolvedServer db

theorem length_filter_eq_count (rows : List NodeJob) (stamp : Option String) :
    (rows.filter fun row => row.resolvedServer = stamp).length =
      (rows.map NodeJob.resolvedServer).count stamp := by
  rw [← countP_eq_length_filter, List.count, countP_map]
  refine countP_congr ?_
  intro row _
  simp

theorem stampedCount_eq (db : Db) (host project kind : String) :
    stampedCount db host project kind = (stamps host project db).count (some kind) := by
  unfold stampedCount stamps
  rw [length_filter_eq_count, map_runningHere]

theorem unstampedCount_eq (db : Db) (host project : String) :
    unstampedCount db host project = (stamps host project db).count none := by
  unfold unstampedCount stamps
  rw [length_filter_eq_count, map_runningHere]

theorem countsAgainst_iff :
    CountsAgainst (some kind) row ↔ row.resolvedServer = some kind ∨ row.resolvedServer = none := by
  unfold CountsAgainst
  rw [Tri.holds_or, Tri.holds_eq, Tri.holds_isNull]
  constructor
  · exact Or.imp_left And.left
  · exact Or.imp_left fun hstamp => ⟨hstamp, by simp [hstamp]⟩

theorem kindCount_eq (db : Db) (host project kind : String) :
    kindCount db (some host) project (some kind) =
      stampedCount db host project kind + unstampedCount db host project := by
  unfold kindCount stampedCount unstampedCount
  induction runningHere db (some host) project with
  | nil => rfl
  | cons row rest ih =>
    simp only [countsAgainst_iff] at ih ⊢
    cases hstamp : row.resolvedServer with
    | none =>
      simp only [filter_cons, hstamp]
      simp only [length_cons, reduceCtorEq, or_true, decide_true, decide_false, if_true,
        Bool.false_eq_true, if_false]
      omega
    | some other =>
      by_cases hkind : other = kind
      · simp only [filter_cons, hstamp, hkind]
        simp only [length_cons, reduceCtorEq, true_or, decide_true, decide_false, if_true,
          Bool.false_eq_true, if_false]
        omega
      · simpa [filter_cons, hstamp, hkind] using ih

end

section

variable {db : Db} {host project : String} {caps : OrdDict String ℤ} {op : QueueOp}

structure CapsDeclared (caps : OrdDict String ℤ) : Prop where
  nonempty : caps.isEmpty = false
  pos : ∀ kind cap, caps.get? kind = some cap → 1 ≤ cap

theorem CapsDeclared.caps_eq (hcaps : CapsDeclared caps) (hargs : args.kindCaps = some caps) :
    args.caps = caps := by
  have hkeep : ∀ entry ∈ caps.entries, decide (entry.2 ≠ 0) = true := by
    intro entry hmem
    have hpos := hcaps.pos entry.1 entry.2 (OrdDict.mem_entries.mp hmem)
    exact decide_eq_true (by omega)
  unfold GpuClaim.caps
  rw [hargs]
  obtain ⟨entries, hnodup⟩ := caps
  simp only [OrdDict.filter, OrdDict.mk.injEq]
  exact filter_eq_self.mpr hkeep

theorem CapsDeclared.lawOn (hcaps : CapsDeclared caps) (hargs : args.kindCaps = some caps)
    (hhost : host ≠ "") (hargsHost : args.host = some host) : args.lawOn = true := by
  unfold GpuClaim.lawOn
  rw [hcaps.caps_eq hargs, hcaps.nonempty]
  simp [GpuClaim.hosted, orNull, hargsHost, hhost]

theorem GpuClaim.kindStamp_isSome (args : GpuClaim) (row : NodeJob) :
    ∃ kind, args.kindStamp row = some kind := by
  rw [← Option.isSome_iff_exists]
  unfold GpuClaim.kindStamp
  split_ifs <;> simp

theorem claim_stamps_counted_kind (hcaps : CapsDeclared caps) (hhost : host ≠ "")
    (hargsHost : args.host = some host) (hproject : args.project = project)
    (hargs : args.kindCaps = some caps) (hholds : (args.capability d db row).Holds) :
    ∃ kind, args.kindStamp row = some kind ∧
      ((args.sql d).take db.now row).resolvedServer = some kind ∧
      kindCount db (some host) project (some kind) < capOfKind caps kind := by
  have hlaw := hcaps.lawOn hargs hhost hargsHost
  obtain ⟨kind, hkind⟩ := args.kindStamp_isSome row
  obtain ⟨-, -, -, -, hgate⟩ := GpuClaim.capability_holds.mp hholds
  unfold GpuClaim.kindGate at hgate
  rw [if_pos hlaw, Tri.holds_ofProp, hkind, hargsHost, hproject] at hgate
  refine ⟨kind, hkind, ?_, ?_⟩
  · simp [ClaimSql.take, GpuClaim.sql, hlaw, hkind]
  · rwa [GpuClaim.capOf, hcaps.caps_eq hargs] at hgate

def Lawful (caps : OrdDict String ℤ) (stamps : List (Option String)) : Prop :=
  ∀ kind, stamps.count (some kind) = 0 ∨
    (stamps.count (some kind) + stamps.count none : ℤ) ≤ capOfKind caps kind

theorem Lawful.of_subperm (hlawful : Lawful caps before) (hsub : after.Subperm before) :
    Lawful caps after := by
  intro kind
  have hkind := hsub.count_le (some kind)
  have hnone := hsub.count_le none
  rcases hlawful kind with hzero | hbound
  · exact Or.inl (by omega)
  · exact Or.inr (by omega)

theorem Lawful.of_cons {kind : String} (hlawful : Lawful caps before)
    (hperm : after.Perm (some kind :: before))
    (hroom : (before.count (some kind) + before.count none : ℤ) < capOfKind caps kind) :
    Lawful caps after := by
  intro other
  rw [hperm.count_eq, hperm.count_eq]
  by_cases hother : other = kind
  · subst hother
    refine Or.inr ?_
    simp only [count_cons_self, count_cons_of_ne (Option.some_ne_none other)]
    omega
  · have hne : (some kind : Option String) ≠ some other := by simpa [eq_comm] using hother
    rw [count_cons_of_ne hne, count_cons_of_ne (Option.some_ne_none kind)]
    exact hlawful other

theorem QueueOp.respects_resolvedServer (hrestamps : op.restamps = none) :
    op.Respects NodeJob.resolvedServer := by
  intro row after _ hstamp
  exact hstamp.resolve_right fun hne => hne hrestamps

structure QueueOp.UnderLaw (host project : String) (caps : OrdDict String ℤ) (op : QueueOp) :
    Prop where
  claims : ∀ args env, op = .claimGpu args env → args.host = some host → args.project = project →
    args.kindCaps = some caps
  noRestamp : op.restamps = none

theorem lawful_step (hcaps : CapsDeclared caps) (hhost : host ≠ "")
    (hop : op.UnderLaw host project caps) (hlawful : Lawful caps (stamps host project db)) :
    Lawful caps (stamps host project (op.step d db)) := by
  -- A claim for the host adds the stamp it counted; anything else only drops stamps.
  by_cases hclaims : op.ClaimsHere host project
  · obtain ⟨args, env, rfl, hargsHost, hproject⟩ := hclaims
    have hargs := hop.claims args env rfl hargsHost hproject
    rcases occupants_claim NodeJob.resolvedServer d db env hargsHost hproject with
      hsame | ⟨row, hholds, hperm⟩
    · exact hlawful.of_subperm (Perm.of_eq hsame).subperm
    · obtain ⟨kind, -, hstamp, hroom⟩ :=
        claim_stamps_counted_kind hcaps hhost hargsHost hproject hargs hholds
      rw [hstamp] at hperm
      rw [kindCount_eq, stampedCount_eq, unstampedCount_eq] at hroom
      exact hlawful.of_cons hperm hroom
  · exact hlawful.of_subperm
      (occupants_subperm (QueueOp.respects_resolvedServer hop.noRestamp) hclaims)

theorem lawful_of_unstamped
    (hstart : ∀ row ∈ runningHere db (some host) project, row.resolvedServer = none) :
    Lawful caps (stamps host project db) := by
  intro kind
  refine Or.inl (count_eq_zero.mpr ?_)
  intro hmem
  rw [stamps, ← map_runningHere, mem_map] at hmem
  obtain ⟨row, hrow, hstamp⟩ := hmem
  rw [hstart row hrow] at hstamp
  cases hstamp

theorem Lawful.count_le_max (hlawful : Lawful caps (stamps host project db)) (kind : String) :
    stampedCount db host project kind + unstampedCount db host project ≤
      max (capOfKind caps kind) (unstampedCount db host project) := by
  rw [stampedCount_eq, unstampedCount_eq]
  rcases hlawful kind with hzero | hbound
  · refine le_trans ?_ (le_max_right _ _)
    omega
  · exact hbound.trans (le_max_left _ _)

end

/-- **The per-kind law.** The rows of each kind and the unstamped ones stay within the cap of the
kind or are unstamped alone, and a row is stamped with the kind it was counted against. -/
theorem kind_caps_hold (d : Dialect) (host project : String) (hhost : host ≠ "")
    (caps : OrdDict String ℤ) (hcaps : CapsDeclared caps) (db : Db)
    (hstart : ∀ row ∈ runningHere db (some host) project, row.resolvedServer = none)
    (history : List QueueOp) (hlaw : ∀ op ∈ history, op.UnderLaw host project caps) :
    let after := QueueOp.run d db history
    (∀ kind, stampedCount after host project kind + unstampedCount after host project ≤
        max (capOfKind caps kind) (unstampedCount after host project)) ∧
      ∀ (args : GpuClaim) (env : ClaimEnv), args.host = some host → args.project = project →
        args.kindCaps = some caps → ∀ final id taken,
          claimNextGpuJob d args env after = (final, some (id, taken)) →
          final.jobs.get? id = some taken ∧
            ∃ row kind, after.jobs.get? id = some row ∧ args.kindStamp row = some kind ∧
              taken.resolvedServer = some kind ∧
              kindCount after (some host) project (some kind) < capOfKind caps kind := by
  intro after
  have hlawful : Lawful caps (stamps host project after) := by
    refine QueueOp.run_invariant (fun db => Lawful caps (stamps host project db))
      (lawful_of_unstamped hstart) ?_
    intro db op hmem hbefore
    exact lawful_step hcaps hhost (hlaw op hmem) hbefore
  refine ⟨hlawful.count_le_max, ?_⟩
  intro args env hargsHost hproject hargs final id taken hclaim
  obtain ⟨hstored, row, hget, hholds, rfl⟩ := ClaimSql.execute_taken hclaim
  obtain ⟨-, -, -, -, -, hcapability⟩ := ClaimSql.eligible_holds.mp hholds
  obtain ⟨kind, hkind, hstamp, hroom⟩ :=
    claim_stamps_counted_kind hcaps hhost hargsHost hproject hargs hcapability
  exact ⟨hstored, row, kind, hget, hkind, hstamp, hroom⟩

/-- One unstamped row of an older claim and a cap of two for the batching kind: one more row of it
is taken, the next one waits. -/
theorem kind_caps_hold_vllm :
    let row (node : String) (status : JobStatus) (claimedBy : Option String) : NodeJob :=
      { runId := "run", nodeId := node, nodeModule := "m", queue := .gpu, project := "",
        status := status, claimedBy := claimedBy, serverTypes := some ["vllm", "ollama"],
        createdAt := 0 }
    let db : Db :=
      { jobs := Table.ofRows
          [row "old" .running (some "box"), row "a" .queued none, row "b" .queued none],
        runs := OrdDict.empty.insert "run" { workflowName := "w", status := .running } }
    let caps : OrdDict String ℤ := OrdDict.empty.insert "vllm" 2
    let args : GpuClaim :=
      { host := some "box", servedTypes := ["vllm"], kindCaps := some caps }
    let after := QueueOp.run .pg db [.claimGpu args {}, .claimGpu args {}]
    stampedCount after "box" "" "vllm" = 1 ∧ unstampedCount after "box" "" = 1 ∧
      stampedCount after "box" "" "vllm" + unstampedCount after "box" "" ≤
        max (capOfKind caps "vllm") (unstampedCount after "box" "") := by
  intro row db caps args after
  refine ⟨by decide +kernel, by decide +kernel, ?_⟩
  have hcaps : CapsDeclared caps := by
    refine ⟨rfl, ?_⟩
    intro kind cap hget
    have hmem := OrdDict.mem_entries.mpr hget
    simp only [caps, OrdDict.insert, OrdDict.empty, OrdDict.insertIn, mem_singleton,
      Prod.mk.injEq] at hmem
    omega
  refine (kind_caps_hold .pg "box" "" (by decide) caps hcaps db ?_
    [.claimGpu args {}, .claimGpu args {}] ?_).1 "vllm"
  · decide +kernel
  · intro op hmem
    have hop : op = .claimGpu args {} := by simpa using hmem
    subst hop
    refine ⟨?_, rfl⟩
    rintro args' env' hclaim - -
    cases hclaim
    rfl

/-! ### The order of the stamps -/

namespace Dialect

theorem argmin_zipIdx (offered : String → Bool) (items : List String) (start : ℕ) :
    (((items.zipIdx start).filter fun entry => offered entry.1).argmin Prod.snd).map Prod.fst =
      items.find? offered := by
  induction items generalizing start with
  | nil => rfl
  | cons item rest ih =>
    rw [zipIdx_cons]
    cases hitem : offered item with
    | false =>
      rw [filter_cons_of_neg (by simp [hitem]), find?_cons_of_neg (by simp [hitem]), ih]
    | true =>
      rw [filter_cons_of_pos (by simp [hitem]), find?_cons_of_pos hitem, argmin_cons]
      -- A later element has a larger number.
      cases hlater : ((rest.zipIdx (start + 1)).filter fun entry => offered entry.1).argmin
          Prod.snd with
      | none => rfl
      | some entry =>
        have hlt : start < entry.2 :=
          le_snd_of_mem_zipIdx (mem_of_mem_filter (argmin_mem hlater))
        dsimp only
        rw [if_neg hlt.le.not_gt, Option.map_some]

theorem firstOverlapQuery_eq (d : Dialect) (column : Option (List String)) (param : List String) :
    d.firstOverlapQuery column param = firstOverlap column param := by
  cases column with
  | none => rfl
  | some items =>
    cases d with
    | pg => exact argmin_zipIdx (fun item => item ∈ param) items 1
    | sqlite => exact argmin_zipIdx (fun item => item ∈ param) items 0

end Dialect

def StampsFirst (choices : Option (List String)) (offers : List String) (stamp : Option String) :
    Prop :=
  ∀ before choice rest, choices = some (before ++ choice :: rest) → choice ∈ offers →
    (∀ other ∈ before, other ∉ offers) → stamp = some choice

theorem stampsFirst_or {choices : Option (List String)} {offers : List String}
    (fallback : Option String) :
    StampsFirst choices offers
      ((if offers = [] then none else Dialect.firstOverlap choices offers).or fallback) := by
  rintro before choice rest rfl hoffered hothers
  have hfound : Dialect.firstOverlap (some (before ++ choice :: rest)) offers = some choice := by
    refine find?_eq_some_iff_append.mpr ⟨decide_eq_true hoffered, before, rest, rfl, ?_⟩
    exact fun other hmem => by simpa using hothers other hmem
  rw [if_neg (ne_nil_of_mem hoffered), hfound, Option.some_or]

/-- **Preference order is honoured in the stamps**, on both backends, and the order of the box's
own lists does not matter. -/
theorem stamps_in_order (d : Dialect) (args : GpuClaim) (env : ClaimEnv) (db after : Db)
    (id : JobId) (taken : NodeJob) (hlaw : args.lawOn = true)
    (hclaim : claimNextGpuJob d args env db = (after, some (id, taken))) :
    after.jobs.get? id = some taken ∧
      (∀ column param, d.firstOverlapQuery column param = Dialect.firstOverlap column param) ∧
      ∃ row, db.jobs.get? id = some row ∧
        StampsFirst row.serverTypes args.served taken.resolvedServer ∧
        (∀ kind rest, row.serverTypes = some (kind :: rest) →
          (∀ other ∈ kind :: rest, other ∉ args.served) → taken.resolvedServer = some kind) ∧
        StampsFirst row.requiredModelIds args.known taken.resolvedModel := by
  obtain ⟨hstored, row, hget, -, rfl⟩ := ClaimSql.execute_taken hclaim
  refine ⟨hstored, d.firstOverlapQuery_eq, row, hget, ?_⟩
  have hserver : ((args.sql d).take db.now row).resolvedServer = args.kindStamp row := if_pos hlaw
  have hmodel : ((args.sql d).take db.now row).resolvedModel =
      (if args.known = [] then none else
        Dialect.firstOverlap row.requiredModelIds args.known).or row.requiredModel := by
    change args.modelStamp row = _
    unfold GpuClaim.modelStamp
    split <;> rfl
  rw [hserver, hmodel]
  refine ⟨stampsFirst_or _, ?_, stampsFirst_or _⟩
  intro kind rest htypes hunserved
  unfold GpuClaim.kindStamp
  have hnone : Dialect.firstOverlap row.serverTypes args.served = none := by
    rw [htypes]
    exact find?_eq_none.mpr fun other hmem => by simpa using hunserved other hmem
  rw [hnone, ite_self, htypes]
  rfl

theorem stamps_in_order_second :
    let row : NodeJob :=
      { runId := "run", nodeId := "n", nodeModule := "m", queue := .gpu, project := "",
        status := .queued, serverTypes := some ["cluster", "vllm", "ollama"],
        requiredModel := some "big", requiredModelIds := some ["big", "mid", "small"],
        createdAt := 0 }
    let db : Db :=
      { jobs := Table.ofRows [row]
        runs := OrdDict.empty.insert "run" { workflowName := "w", status := .running } }
    let args : GpuClaim :=
      { host := some "box", servedTypes := ["ollama", "vllm"], knownModels := ["small", "mid"] }
    let claim := claimNextGpuJob .sqlite args {} db
    claim.2.map (fun entry => (entry.2.resolvedServer, entry.2.resolvedModel)) =
      some (some "vllm", some "mid") := by
  intro row db args claim
  have htaken : claim.2.isSome = true := by decide +kernel
  obtain ⟨entry, hentry⟩ := Option.isSome_iff_exists.mp htaken
  obtain ⟨-, -, found, hget, hserver, -, hmodel⟩ := stamps_in_order .sqlite args {} db claim.1
    entry.1 entry.2 (by decide +kernel) (Prod.ext rfl hentry)
  obtain ⟨-, rfl⟩ := Prod.mk.inj (mem_singleton.mp (Table.mem_entries.mpr hget))
  rw [hentry, Option.map_some, hserver ["cluster"] "vllm" ["ollama"] rfl (by decide) (by decide),
    hmodel ["big"] "mid" ["small"] rfl (by decide) (by decide)]

end BrokerParrot
