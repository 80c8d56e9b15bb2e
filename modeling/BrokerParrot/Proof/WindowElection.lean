import BrokerParrot.Proof.PoolPacking

/-!
# The election of the box that grows

For one waiting job the boxes that reach its window are ordered by how tightly they fit, so one of
them comes first; the others stand back. The order and the check that nobody serves the window
already run over all live boxes of the project, and a box that the job's placement refuses counts in
both.
-/

namespace BrokerParrot

variable {fleet : Fleet} {worker : WorkerKey}

namespace ContextNeed

def asBox (args : ContextNeed) (fleet : Fleet) (boxes : WorkerKey → Option String)
    (worker : WorkerKey) : ContextNeed :=
  { args with
    host := worker.hostLabel
    serving := (fleet.adverts worker).contextLength
    ceiling := (fleet.adverts worker).contextMax
    box := boxes worker
    elect := true }

structure Waiting (args : ContextNeed) (fleet : Fleet) (id : JobId) (row : NodeJob) (need : ℤ) :
    Prop where
  stored : fleet.db.jobs.get? id = some row
  queue : row.queue = .gpu
  status : row.status = .queued
  project : row.project = args.project
  sized : row.contextLength = some need
  positive : 0 < need
  waited : row.createdAt ≤ fleet.db.now - args.minAgeS
  run : runClaimable fleet.db row.runId = true

end ContextNeed

namespace Fleet

def ServesNeed (fleet : Fleet) (need : ℤ) (worker : WorkerKey) : Prop :=
  ∃ tokens, (fleet.adverts worker).contextLength = some tokens ∧ need ≤ tokens

def ReachesNeed (fleet : Fleet) (need : ℤ) (worker : WorkerKey) : Prop :=
  ∃ widest, (fleet.adverts worker).contextMax = some widest ∧ need ≤ widest

def Tighter (fleet : Fleet) (collation : Collation) (first second : WorkerKey) : Prop :=
  ∃ widest other, (fleet.adverts first).contextMax = some widest ∧
    (fleet.adverts second).contextMax = some other ∧
    (widest < other ∨ (widest = other ∧ collation.lt first.hostLabel second.hostLabel = true))

theorem tighter_irrefl (fleet : Fleet) (collation : Collation) (worker : WorkerKey) :
    ¬ fleet.Tighter collation worker worker := by
  rintro ⟨widest, other, hwidest, hother, hlt | ⟨-, hlabel⟩⟩
  · obtain rfl : widest = other := Option.mem_unique hwidest hother
    exact lt_irrefl _ hlt
  · exact absurd hlabel (by simp [collation.irrefl])

theorem tighter_trans (fleet : Fleet) (collation : Collation) (a b c : WorkerKey)
    (hab : fleet.Tighter collation a b) (hbc : fleet.Tighter collation b c) :
    fleet.Tighter collation a c := by
  obtain ⟨ma, mb, hma, hmb, hab⟩ := hab
  obtain ⟨mb', mc, hmb', hmc, hbc⟩ := hbc
  obtain rfl : mb = mb' := Option.some.inj (hmb.symm.trans hmb')
  refine ⟨ma, mc, hma, hmc, ?_⟩
  rcases hab with hab | ⟨rfl, hlab⟩ <;> rcases hbc with hbc | ⟨rfl, hlbc⟩
  · exact Or.inl (hab.trans hbc)
  · exact Or.inl hab
  · exact Or.inl hbc
  · exact Or.inr ⟨rfl, collation.trans _ _ _ hlab hlbc⟩

end Fleet

namespace ContextNeed

variable {args : ContextNeed} {d : Dialect} {collation : Collation}
  {boxes : WorkerKey → Option String} {id : JobId} {row : NodeJob} {need ceiling : ℤ}
  {other : WorkerKey}

theorem tighter_total (collation : Collation) (hworker : worker ∈ args.live fleet)
    (hother : other ∈ args.live fleet) (hreach : fleet.ReachesNeed need worker)
    (hreach' : fleet.ReachesNeed need other) (hne : worker ≠ other) :
    fleet.Tighter collation worker other ∨ fleet.Tighter collation other worker := by
  obtain ⟨widest, hwidest, -⟩ := hreach
  obtain ⟨widest', hwidest', -⟩ := hreach'
  rcases lt_trichotomy widest widest' with hlt | rfl | hlt
  · exact Or.inl ⟨_, _, hwidest, hwidest', Or.inl hlt⟩
  · have hlabel : worker.hostLabel ≠ other.hostLabel := by
      intro hlabel
      obtain ⟨hqueue, hproject⟩ := Fleet.key_of_mem_liveGpu (List.mem_filter.mp hworker).1
      obtain ⟨hqueue', hproject'⟩ := Fleet.key_of_mem_liveGpu (List.mem_filter.mp hother).1
      obtain ⟨host, queue, project⟩ := worker
      obtain ⟨host', queue', project'⟩ := other
      simp only at hlabel hqueue hproject hqueue' hproject'
      exact hne (by rw [hlabel, hqueue, hproject, hqueue', hproject'])
    rcases collation.total _ _ hlabel with hlt | hlt
    · exact Or.inl ⟨_, _, hwidest, hwidest', Or.inr ⟨rfl, hlt⟩⟩
    · exact Or.inr ⟨_, _, hwidest', hwidest, Or.inr ⟨rfl, hlt⟩⟩
  · exact Or.inr ⟨_, _, hwidest', hwidest, Or.inl hlt⟩

theorem outbid_iff (hsized : row.contextLength = some need)
    (hceiling : (fleet.adverts worker).contextMax = some ceiling) :
    (args.asBox fleet boxes worker).Outbid collation fleet ceiling row other ↔
      fleet.ReachesNeed need other ∧ fleet.Tighter collation other worker := by
  unfold Outbid Fleet.ReachesNeed Fleet.Tighter
  rw [hsized, hceiling]
  cases hmax : (fleet.adverts other).contextMax with
  | none => simp [Tri.compare, Tri.Holds]
  | some => simp [Tri.compare, Tri.eq, Tri.Holds, asBox]

theorem not_servesNeed_iff (hsized : row.contextLength = some need) :
    ¬ (Tri.compare (· ≤ ·) row.contextLength (fleet.adverts worker).contextLength).Holds ↔
      ¬ fleet.ServesNeed need worker := by
  unfold Fleet.ServesNeed
  rw [hsized]
  cases (fleet.adverts worker).contextLength <;> simp [Tri.compare, Tri.Holds]

theorem asks_iff (hwaiting : args.Waiting fleet id row need)
    (hceiling : (fleet.adverts worker).contextMax = some ceiling)
    (hplaced : (placementTerms d (boxes worker) row).Holds)
    (hserves : ¬ fleet.ServesNeed need worker) :
    (args.asBox fleet boxes worker).Asks d collation fleet ceiling row ↔
      need ≤ ceiling ∧ (∀ other ∈ args.live fleet, ¬ fleet.ServesNeed need other) ∧
        ∀ other ∈ args.live fleet, fleet.ReachesNeed need other →
          ¬ fleet.Tighter collation other worker := by
  have hbeyond : (Tri.compare (· < ·) (some ((fleet.adverts worker).contextLength.getD 0))
      row.contextLength).Holds := by
    rw [hwaiting.sized]
    cases hserving : (fleet.adverts worker).contextLength with
    | none => simpa [Tri.compare, Tri.Holds] using hwaiting.positive
    | some tokens =>
      have hshort : tokens < need := not_le.mp fun hle => hserves ⟨tokens, hserving, hle⟩
      simpa [Tri.compare, Tri.Holds] using hshort
  have hfits : (Tri.compare (· ≤ ·) row.contextLength (some ceiling)).Holds ↔ need ≤ ceiling := by
    rw [hwaiting.sized]
    simp [Tri.compare, Tri.Holds]
  constructor
  · rintro ⟨-, -, -, -, hle, -, -, -, hnobody, helected⟩
    refine ⟨hfits.mp hle, fun other hother => ?_, fun other hother hreach htighter => ?_⟩
    · exact (not_servesNeed_iff hwaiting.sized).mp (hnobody other hother)
    · exact helected rfl other hother ((outbid_iff hwaiting.sized hceiling).mpr ⟨hreach, htighter⟩)
  · rintro ⟨hle, hnobody, hfirst⟩
    refine ⟨hwaiting.queue, hwaiting.status, hwaiting.project, hbeyond, hfits.mpr hle,
      hwaiting.waited, hplaced, hwaiting.run, fun other hother => ?_, fun _ other hother => ?_⟩
    · exact (not_servesNeed_iff hwaiting.sized).mpr (hnobody other hother)
    · rw [outbid_iff hwaiting.sized hceiling]
      exact fun hbid => hfirst other hother hbid.1 hbid.2

theorem le_contextSwitchNeed (hceiling : args.ceiling = some ceiling)
    (hstored : fleet.db.jobs.get? id = some row) (hsized : row.contextLength = some need)
    (hpositive : 0 < need) (hasks : args.Asks d collation fleet ceiling row) :
    ∃ answer, contextSwitchNeed d collation args fleet = some answer ∧ need ≤ answer := by
  unfold contextSwitchNeed
  rw [hceiling, Option.bind_some]
  dsimp only
  set asked := fleet.db.jobs.collect fun _ row =>
    if args.Asks d collation fleet ceiling row then row.contextLength else none with hasked
  have hmem : need ∈ asked := by
    refine Table.mem_collect.mpr ⟨id, Option.bind_eq_some_iff.mpr ⟨row, hstored, ?_⟩⟩
    dsimp only
    rw [if_pos hasks, hsized]
  cases hmax : asked.max? with
  | none => cases List.max?_eq_none_iff.mp hmax ▸ hmem
  | some answer =>
    have hle : need ≤ answer := (List.max?_eq_some_iff.mp hmax).2 need hmem
    refine ⟨answer, ?_, hle⟩
    rw [Option.filter_some, if_pos]
    exact decide_eq_true (by omega)

/-- The box's answer covers the job, and the job is one of those the answer was made from. -/
def GrowsFor (args : ContextNeed) (d : Dialect) (collation : Collation) (fleet : Fleet)
    (boxes : WorkerKey → Option String) (row : NodeJob) (need : ℤ) (worker : WorkerKey) : Prop :=
  (∃ ceiling, (fleet.adverts worker).contextMax = some ceiling ∧
      (args.asBox fleet boxes worker).Asks d collation fleet ceiling row) ∧
    ∃ answer, contextSwitchNeed d collation (args.asBox fleet boxes worker) fleet = some answer ∧
      need ≤ answer

theorem growsFor_iff (hwaiting : args.Waiting fleet id row need)
    (hplaced : (placementTerms d (boxes worker) row).Holds)
    (hserves : ¬ fleet.ServesNeed need worker) :
    args.GrowsFor d collation fleet boxes row need worker ↔
      fleet.ReachesNeed need worker ∧ (∀ other ∈ args.live fleet, ¬ fleet.ServesNeed need other) ∧
        ∀ other ∈ args.live fleet, fleet.ReachesNeed need other →
          ¬ fleet.Tighter collation other worker := by
  constructor
  · rintro ⟨⟨ceiling, hceiling, hasks⟩, -⟩
    obtain ⟨hle, hnobody, hfirst⟩ := (asks_iff hwaiting hceiling hplaced hserves).mp hasks
    exact ⟨⟨ceiling, hceiling, hle⟩, hnobody, hfirst⟩
  · rintro ⟨⟨ceiling, hceiling, hle⟩, hnobody, hfirst⟩
    have hasks := (asks_iff hwaiting hceiling hplaced hserves).mpr ⟨hle, hnobody, hfirst⟩
    exact ⟨⟨ceiling, hceiling, hasks⟩,
      le_contextSwitchNeed hceiling hwaiting.stored hwaiting.sized hwaiting.positive hasks⟩

theorem exists_tightest (collation : Collation) (hlive : worker ∈ args.live fleet)
    (hreach : fleet.ReachesNeed need worker) :
    ∃ top ∈ args.live fleet, fleet.ReachesNeed need top ∧
      ∀ other ∈ args.live fleet, fleet.ReachesNeed need other →
        ¬ fleet.Tighter collation other top := by
  classical
  have hmem (worker : WorkerKey) :
      worker ∈ (args.live fleet).filter (fun worker => fleet.ReachesNeed need worker) ↔
        worker ∈ args.live fleet ∧ fleet.ReachesNeed need worker := by
    rw [List.mem_filter, decide_eq_true_iff]
  obtain ⟨top, htop, hfirst⟩ := exists_mem_forall_not (fleet.tighter_irrefl collation)
    (fleet.tighter_trans collation) (List.ne_nil_of_mem ((hmem worker).mpr ⟨hlive, hreach⟩))
  obtain ⟨htoplive, htopreach⟩ := (hmem top).mp htop
  exact ⟨top, htoplive, htopreach,
    fun other hother hreach => hfirst other ((hmem other).mpr ⟨hother, hreach⟩)⟩

end ContextNeed

/-- **Exactly one box grows.** Exactly one admitted box grows for a waiting job if and only if no
box that the placement refuses serves the window, or reaches it while fitting more tightly than
every admitted one. -/
theorem one_box_grows_iff (args : ContextNeed) (d : Dialect) (collation : Collation) (fleet : Fleet)
    (boxes : WorkerKey → Option String) (id : JobId) (row : NodeJob) (need : ℤ)
    (hwaiting : args.Waiting fleet id row need)
    (hunserved : ∀ worker ∈ args.live fleet, (placementTerms d (boxes worker) row).Holds →
      ¬ fleet.ServesNeed need worker)
    (hreachable : ∃ worker ∈ args.live fleet, (placementTerms d (boxes worker) row).Holds ∧
      fleet.ReachesNeed need worker) :
    (∃! worker, worker ∈ args.live fleet ∧ (placementTerms d (boxes worker) row).Holds ∧
        args.GrowsFor d collation fleet boxes row need worker) ↔
      ∀ refused ∈ args.live fleet, ¬ (placementTerms d (boxes refused) row).Holds →
        ¬ fleet.ServesNeed need refused ∧
          (fleet.ReachesNeed need refused →
            ∃ worker ∈ args.live fleet, (placementTerms d (boxes worker) row).Holds ∧
              fleet.ReachesNeed need worker ∧ fleet.Tighter collation worker refused) := by
  have hgrows (worker : WorkerKey) (hlive : worker ∈ args.live fleet)
      (hplaced : (placementTerms d (boxes worker) row).Holds) :
      args.GrowsFor d collation fleet boxes row need worker ↔ _ :=
    ContextNeed.growsFor_iff hwaiting hplaced (hunserved worker hlive hplaced)
  constructor
  · rintro ⟨winner, ⟨hlive, hplaced, hwins⟩, -⟩ refused hrefused hnot
    obtain ⟨hreach, hnobody, hfirst⟩ := (hgrows winner hlive hplaced).mp hwins
    refine ⟨hnobody refused hrefused, fun hreaches => ⟨winner, hlive, hplaced, hreach, ?_⟩⟩
    -- The order is total on the live boxes, so the winner beats the refused one.
    have hne : winner ≠ refused := fun heq => hnot (heq ▸ hplaced)
    exact (ContextNeed.tighter_total collation hlive hrefused hreach hreaches hne).resolve_right
      (hfirst refused hrefused hreaches)
  · intro hrefused
    have hnobody : ∀ other ∈ args.live fleet, ¬ fleet.ServesNeed need other := by
      intro other hother
      by_cases hplaced : (placementTerms d (boxes other) row).Holds
      · exact hunserved other hother hplaced
      · exact (hrefused other hother hplaced).1
    -- the tightest of all boxes that reach the window
    obtain ⟨able, hable, -, hreaches⟩ := hreachable
    obtain ⟨top, hlive, hreach, hbest⟩ := ContextNeed.exists_tightest collation hable hreaches
    -- A refused box that came first would be beaten by an admitted one.
    have hplaced : (placementTerms d (boxes top) row).Holds := by
      by_contra hnot
      obtain ⟨worker, hworker, -, hreach', htighter⟩ := (hrefused top hlive hnot).2 hreach
      exact hbest worker hworker hreach' htighter
    refine ⟨top, ⟨hlive, hplaced, (hgrows top hlive hplaced).mpr ⟨hreach, hnobody, hbest⟩⟩, ?_⟩
    rintro other ⟨hother, hplaced', hwins⟩
    obtain ⟨hreach', -, hfirst'⟩ := (hgrows other hother hplaced').mp hwins
    by_contra hne
    rcases ContextNeed.tighter_total collation hother hlive hreach' hreach hne with
      htighter | htighter
    · exact hbest other hother hreach' htighter
    · exact hfirst' top hlive hreach htighter

/-! ### Two boxes that fit as tightly -/

def sizedRow (forceBox : Option (List String)) : NodeJob :=
  { runId := "run", nodeId := "chat", nodeModule := "m", queue := .gpu, project := "",
    status := .queued, contextLength := some 100, forceBox := forceBox, createdAt := 0 }

def twinBoxes (row : NodeJob) : Fleet where
  db :=
    { jobs := Table.ofRows [row]
      runs := OrdDict.empty.insert "run" { workflowName := "w", status := .running }
      heartbeats := (OrdDict.empty.insert ⟨"a-gpu", .gpu, ""⟩ ⟨1, 60⟩).insert
        ⟨"b-gpu", .gpu, ""⟩ ⟨1, 60⟩
      now := 60 }
  adverts := fun _ => { contextLength := some 10, contextMax := some 200 }

def twinCall : ContextNeed := { host := "", serving := none, ceiling := none }

def twinNames (worker : WorkerKey) : Option String :=
  if worker.hostLabel = "a-gpu" then some "a" else some "b"

theorem waiting_sizedRow (forceBox : Option (List String)) :
    twinCall.Waiting (twinBoxes (sizedRow forceBox)) 0 (sizedRow forceBox) 100 :=
  ⟨rfl, rfl, rfl, rfl, rfl, by decide, show (0 : ℚ) ≤ 60 - 30 by norm_num, rfl⟩

theorem not_servesNeed_twinBoxes (row : NodeJob) (worker : WorkerKey) :
    ¬ (twinBoxes row).ServesNeed 100 worker := by
  rintro ⟨tokens, htokens, hle⟩
  obtain rfl : (10 : ℤ) = tokens := Option.some.inj htokens
  cases hle

theorem one_box_grows_iff_twins :
    ∃! worker, worker ∈ twinCall.live (twinBoxes (sizedRow none)) ∧
      (placementTerms .pg (twinNames worker) (sizedRow none)).Holds ∧
      twinCall.GrowsFor .pg .binary (twinBoxes (sizedRow none)) twinNames (sizedRow none) 100
        worker := by
  have hplaced (worker : WorkerKey) :
      (placementTerms .pg (twinNames worker) (sizedRow none)).Holds := rfl
  refine (one_box_grows_iff twinCall .pg .binary (twinBoxes (sizedRow none)) twinNames 0
    (sizedRow none) 100 (waiting_sizedRow none) ?_ ?_).mpr ?_
  · exact fun worker _ _ => not_servesNeed_twinBoxes _ worker
  · exact ⟨⟨"a-gpu", .gpu, ""⟩, by decide +kernel, hplaced _, 200, rfl, by decide⟩
  · exact fun worker _ hnot => absurd (hplaced worker) hnot

/-- The job may run on the second box only. The first one wins the election and has no use for it,
so neither box grows. -/
theorem forced_job_grows_nowhere :
    let row := sizedRow (some ["b"])
    let fleet := twinBoxes row
    twinCall.Waiting fleet 0 row 100 ∧
      (∀ worker ∈ twinCall.live fleet, ¬ fleet.ServesNeed 100 worker) ∧
      (∃ worker ∈ twinCall.live fleet, (placementTerms .pg (twinNames worker) row).Holds ∧
        fleet.ReachesNeed 100 worker) ∧
      ∀ worker ∈ twinCall.live fleet,
        contextSwitchNeed .pg .binary (twinCall.asBox fleet twinNames worker) fleet = none := by
  intro row fleet
  refine ⟨waiting_sizedRow _, fun worker _ => not_servesNeed_twinBoxes _ worker, ?_, ?_⟩
  · exact ⟨⟨"b-gpu", .gpu, ""⟩, by decide +kernel, by decide +kernel, 200, rfl, by decide⟩
  · decide +kernel

end BrokerParrot
