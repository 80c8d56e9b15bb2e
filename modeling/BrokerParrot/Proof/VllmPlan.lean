import BrokerParrot.LlmContext

/-!
# The start plan of vLLM

The plan takes the largest number of requests that fit, with a margin, into the usable memory, and
then a pool for them in whole hundredths of the box: rounded up for the need, and capped by the
operator's value rounded to hundredths and by the free memory rounded down to hundredths. On a box
with little free memory it does not, and the operator's value can be rounded up.
-/

namespace BrokerParrot

open Rounding

variable {count : ℤ}

namespace LlmContext

section

variable (x y : ℚ)

theorem roundTwo_min : roundTwo (min x y) = min (roundTwo x) (roundTwo y) :=
  roundTo_min (by norm_num) x y

theorem roundTwo_roundTwo : roundTwo (roundTwo x) = roundTwo x :=
  roundTo_roundTo (by norm_num) x

theorem roundTwo_floorTo :
    roundTwo (Rounding.floorTo (1 / 100) x) = Rounding.floorTo (1 / 100) x :=
  roundTo_of_onGrid (by norm_num) (onGrid_floorTo _ x)

theorem roundTwo_ceilTo : roundTwo (Rounding.ceilTo (1 / 100) x) = Rounding.ceilTo (1 / 100) x :=
  roundTo_of_onGrid (by norm_num) (onGrid_ceilTo _ x)

end

namespace StartRequest

section

variable (request : StartRequest) (total available window : ℕ) (profile : VllmProfile)

/-! ### What the plan is to keep -/

def need (count : ℤ) : ℚ := fixed profile + count * perSeq window profile

def freeHundredths : ℚ :=
  Rounding.floorTo (1 / 100)
    (max (((available : ℤ) - request.reserveBytes : ℤ) / (total : ℚ)) 0)

structure Honourable (util : ℚ) (seqs : ℤ) : Prop where
  free : util * total ≤ ((available : ℤ) - request.reserveBytes : ℤ)
  operator : util ≤ request.opUtil
  one : 1 ≤ seqs
  most : seqs ≤ max 1 (request.operatorMaxSeqs.getD 1)
  holds : profile.weightsBytes + profile.overheadBytes +
    seqs * window * profile.perTokenBytes ≤ util * total

def affordable : Set ℤ :=
  { count | 1 ≤ count ∧ count ≤ request.nMax ∧
    need window profile count * (1 + vllmPlanMargin) ≤ request.cap total available }

/-- The operator's value is not rounded up, or the hundredths that are free or needed stay below it;
and the largest affordable number of requests fits into both as rounded. -/
def RoundsWell : Prop :=
  ∀ count, IsGreatest (request.affordable total available window profile) count →
    (roundTwo request.opUtil ≤ request.opUtil ∨
      request.freeHundredths total available ≤ request.opUtil ∨
      Rounding.ceilTo (1 / 100)
        (need window profile count * (1 + vllmPlanMargin) / total) ≤ request.opUtil) ∧
    need window profile count ≤ roundTwo request.opUtil * total ∧
    need window profile count ≤ request.freeHundredths total available * total

/-! ### The pool -/

theorem fixed_nonneg : 0 ≤ fixed profile := by
  have hoverhead : 0 ≤ profile.overheadBytes := le_max_left _ _
  unfold fixed
  omega

variable {request total available window profile}

theorem perSeq_pos (hcost : 0 < profile.perTokenBytes) (hwindow : window ≠ 0) :
    0 < perSeq window profile :=
  mul_pos (Nat.cast_pos.mpr (Nat.pos_of_ne_zero hwindow)) hcost

theorem need_pos (hseq : 0 < perSeq window profile) (hcount : 1 ≤ count) :
    0 < need window profile count := by
  have hfixed : (0 : ℚ) ≤ fixed profile := Int.cast_nonneg (fixed_nonneg profile)
  have hcount : (0 : ℚ) < count := Int.cast_pos.mpr (by omega)
  have := mul_pos hcount hseq
  unfold need
  linarith

theorem vllmUtilization_eq (htotal : total ≠ 0) :
    vllmUtilization (some request.opUtil) (some total) (some available) request.reserveBytes =
      some (min (roundTwo request.opUtil) (request.freeHundredths total available)) := by
  change (if total = 0 then none
    else some (roundTwo (min request.opUtil (request.freeHundredths total available)))) = _
  rw [if_neg htotal, roundTwo_min]
  unfold freeHundredths
  rw [roundTwo_floorTo]

theorem sizedUtilization_eq (htotal : total ≠ 0) (count : ℤ)
    (hcount : request.concurrency total available window profile vllmPlanMargin = count) :
    request.sizedUtilization total available window profile (1 / 100) vllmPlanMargin =
      min (Rounding.ceilTo (1 / 100) (need window profile count * (1 + vllmPlanMargin) / total))
        (min (roundTwo request.opUtil) (request.freeHundredths total available)) := by
  have hfree : roundTwo (request.freeHundredths total available) =
      request.freeHundredths total available := roundTwo_floorTo _
  subst hcount
  unfold sizedUtilization
  rw [vllmUtilization_eq htotal]
  dsimp only [Option.getD_some]
  rw [roundTwo_min, roundTwo_min, roundTwo_min, roundTwo_ceilTo, roundTwo_roundTwo, hfree,
    min_assoc, ← min_assoc (roundTwo request.opUtil), min_self]
  rfl

/-! ### The number of requests -/

theorem nMax_eq : request.nMax = max 1 (request.operatorMaxSeqs.getD 1) := by
  unfold nMax
  cases request.operatorMaxSeqs with
  | none => rfl
  | some seqs =>
    by_cases hzero : seqs = 0
    · subst hzero
      rfl
    · simp [hzero]

theorem margin_pos : (0 : ℚ) < 1 + vllmPlanMargin := by norm_num [vllmPlanMargin]

theorem need_fits_iff (request : StartRequest) (total available : ℕ)
    (hseq : 0 < perSeq window profile) (count : ℤ) :
    need window profile count * (1 + vllmPlanMargin) ≤ request.cap total available ↔
      count ≤ ⌊((request.cap total available) / (1 + vllmPlanMargin) - fixed profile) /
        perSeq window profile⌋ := by
  rw [Int.le_floor, le_div_iff₀ hseq, ← le_div_iff₀ margin_pos]
  unfold need
  constructor <;> intro h <;> linarith

theorem isGreatest_concurrency (hseq : 0 < perSeq window profile)
    (hone : (fixed profile + perSeq window profile) * (1 + vllmPlanMargin) ≤
      request.cap total available) :
    IsGreatest (request.affordable total available window profile)
      (request.concurrency total available window profile vllmPlanMargin) := by
  have hfits := need_fits_iff request total available hseq
  have hmax : 1 ≤ request.nMax := le_max_left _ _
  have hfloor := (hfits 1).mp (by simpa [need] using hone)
  unfold concurrency
  constructor
  · refine ⟨le_max_left _ _, by omega, (hfits _).mpr (by omega)⟩
  · rintro count ⟨hlow, hhigh, hcount⟩
    have := (hfits count).mp hcount
    omega

/-! ### The plan -/

section

variable (htotal : total ≠ 0) (hseq : 0 < perSeq window profile)
  (hone : (fixed profile + perSeq window profile) * (1 + vllmPlanMargin) ≤
    request.cap total available)

include hseq hone in
theorem budget_pos : (0 : ℚ) < ((available : ℤ) - request.reserveBytes : ℤ) := by
  have hcap : request.cap total available ≤ (available : ℤ) - request.reserveBytes :=
    min_le_left _ _
  have hneed : 0 < need window profile 1 := need_pos hseq le_rfl
  have hpool : 0 < (fixed profile + perSeq window profile) * (1 + vllmPlanMargin) := by
    refine mul_pos ?_ margin_pos
    simpa [need] using hneed
  calc (0 : ℚ) < request.cap total available := hpool.trans_le hone
    _ ≤ ((available : ℤ) - request.reserveBytes : ℤ) := Int.cast_le.mpr hcap

include htotal hseq hone in
theorem freeHundredths_mul_le :
    request.freeHundredths total available * total ≤
      ((available : ℤ) - request.reserveBytes : ℤ) := by
  have hbudget := budget_pos hseq hone
  have hbox : (0 : ℚ) < total := Nat.cast_pos.mpr (Nat.pos_of_ne_zero htotal)
  have hshare : (0 : ℚ) ≤ ((available : ℤ) - request.reserveBytes : ℤ) / (total : ℚ) :=
    (div_pos hbudget hbox).le
  have hfloor : request.freeHundredths total available ≤
      ((available : ℤ) - request.reserveBytes : ℤ) / (total : ℚ) := by
    unfold freeHundredths
    rw [max_eq_left hshare]
    exact floorTo_le (by norm_num) _
  exact (le_div_iff₀ hbox).mp hfloor

theorem need_le_ceilTo (hbox : (0 : ℚ) < total) (hneed : 0 < need window profile count) :
    need window profile count ≤
      Rounding.ceilTo (1 / 100) (need window profile count * (1 + vllmPlanMargin) / total) *
        total := by
  have hround := le_ceilTo (by norm_num : (0 : ℚ) < 1 / 100)
    (need window profile count * (1 + vllmPlanMargin) / total)
  calc need window profile count ≤ need window profile count * (1 + vllmPlanMargin) :=
        le_mul_of_one_le_right hneed.le (by norm_num [vllmPlanMargin])
    _ ≤ _ := (div_le_iff₀ hbox).mp hround

theorem need_eq (window : ℕ) (profile : VllmProfile) (count : ℤ) :
    need window profile count = profile.weightsBytes + profile.overheadBytes +
      count * window * profile.perTokenBytes := by
  unfold need fixed perSeq
  rw [← mul_assoc]
  push_cast
  rfl

include htotal hseq hone in
theorem honourable_sized_iff :
    request.Honourable total available window profile
        (request.sizedUtilization total available window profile (1 / 100) vllmPlanMargin)
        (request.concurrency total available window profile vllmPlanMargin) ↔
      request.RoundsWell total available window profile := by
  have hgreatest := isGreatest_concurrency hseq hone
  have hbox : (0 : ℚ) < total := Nat.cast_pos.mpr (Nat.pos_of_ne_zero htotal)
  have hutil := sizedUtilization_eq htotal _ (rfl : request.concurrency total available window
    profile vllmPlanMargin = _)
  rw [hutil]
  generalize request.concurrency total available window profile vllmPlanMargin = count at *
  obtain ⟨⟨hlow, hhigh, -⟩, -⟩ := id hgreatest
  have hneed := need_pos hseq hlow
  constructor
  · intro hplan other hother
    obtain rfl := hother.unique hgreatest
    have hpool := hplan.holds
    have hoperator := hplan.operator
    rw [← need_eq, min_mul_of_nonneg _ _ hbox.le, min_mul_of_nonneg _ _ hbox.le, le_min_iff,
      le_min_iff] at hpool
    rw [min_le_iff, min_le_iff] at hoperator
    exact ⟨by tauto, hpool.2⟩
  · intro hrounds
    obtain ⟨hoperator, hrounded, hfree⟩ := hrounds count hgreatest
    refine ⟨?_, ?_, hlow, nMax_eq ▸ hhigh, ?_⟩
    · calc _ ≤ request.freeHundredths total available * total :=
            mul_le_mul_of_nonneg_right ((min_le_right _ _).trans (min_le_right _ _)) hbox.le
        _ ≤ _ := freeHundredths_mul_le htotal hseq hone
    · rw [min_le_iff, min_le_iff]
      tauto
    · rw [← need_eq, min_mul_of_nonneg _ _ hbox.le, min_mul_of_nonneg _ _ hbox.le]
      exact le_min (need_le_ceilTo hbox hneed) (le_min hrounded hfree)

end

theorem vllmPlan_sized {text : PlanText} {util : ℚ} {seqs : ℤ}
    (htotal : request.totalBytes = some total)
    (havailable : request.availableBytes = some available)
    (hwindow : request.window = some window) (hprofile : request.profile = some profile)
    (hutil : (vllmPlan text request).utilization = some util)
    (hseqs : (vllmPlan text request).maxNumSeqs = some seqs) :
    total ≠ 0 ∧ 0 < perSeq window profile ∧
      (fixed profile + perSeq window profile) * (1 + vllmPlanMargin) ≤
        request.cap total available ∧
      util = request.sizedUtilization total available window profile (1 / 100) vllmPlanMargin ∧
      seqs = request.concurrency total available window profile vllmPlanMargin := by
  have hunsized : (request.planWithoutProfile text total available).maxNumSeqs = none := by
    unfold planWithoutProfile
    split
    · rfl
    · split
      · rfl
      · split <;> rfl
  unfold vllmPlan at hutil hseqs
  rw [htotal, havailable] at hutil hseqs
  dsimp only at hutil hseqs
  split at hseqs
  · cases hseqs
  rename_i hbox
  rw [if_neg hbox] at hutil
  rw [hprofile, hwindow] at hutil hseqs
  dsimp only at hutil hseqs
  split at hseqs
  · rename_i hpriced
    rw [if_pos hpriced] at hutil
    unfold planSized at hutil hseqs
    dsimp only at hutil hseqs
    split at hseqs
    · cases hseqs
    · rename_i hfits
      rw [if_neg hfits] at hutil
      exact ⟨hbox, perSeq_pos hpriced.1 hpriced.2, not_lt.mp hfits, (Option.some.inj hutil).symm,
        (Option.some.inj hseqs).symm⟩
  · cases hunsized.symm.trans hseqs

/-- **The plan is honourable exactly if its roundings do no harm.** For every box, operator and
profile for which a start is planned with a pool and a number of requests. -/
theorem plan_honourable_iff (text : PlanText) (request : StartRequest)
    (total available window : ℕ) (profile : VllmProfile) (util : ℚ) (seqs : ℤ)
    (htotal : request.totalBytes = some total)
    (havailable : request.availableBytes = some available)
    (hwindow : request.window = some window) (hprofile : request.profile = some profile)
    (hutil : (vllmPlan text request).utilization = some util)
    (hseqs : (vllmPlan text request).maxNumSeqs = some seqs) :
    request.Honourable total available window profile util seqs ↔
      request.RoundsWell total available window profile := by
  obtain ⟨hbox, hseq, hone, rfl, rfl⟩ :=
    vllmPlan_sized htotal havailable hwindow hprofile hutil hseqs
  exact honourable_sized_iff hbox hseq hone

def plainText : PlanText := ⟨fun _ => "", fun _ => "", fun _ => "", fun _ => "", fun _ => ""⟩

def gibProfile : VllmProfile := ⟨17 * 2 ^ 28, 40 * 2 ^ 30, 655360, 3 / 10, 121 * 2 ^ 30⟩

def gibBox (available : ℕ) (operatorUtilization : ℚ) : StartRequest where
  totalBytes := some (121 * 2 ^ 30)
  availableBytes := some available
  reserveBytes := 8 * 2 ^ 30
  operatorUtilization := some operatorUtilization
  operatorMaxSeqs := some 8
  window := some 32768
  profile := some gibProfile
  minUtilization := 3 / 10

end

/-- With 60 GiB free the eight requests get a pool of 0.18. -/
theorem plan_honourable_iff_roomy :
    (gibBox (60 * 2 ^ 30) (3 / 4)).RoundsWell (121 * 2 ^ 30) (60 * 2 ^ 30) 32768 gibProfile :=
  (plan_honourable_iff plainText (gibBox (60 * 2 ^ 30) (3 / 4)) (121 * 2 ^ 30) (60 * 2 ^ 30) 32768
    gibProfile (9 / 50) 8 rfl rfl rfl rfl (by decide +kernel) (by decide +kernel)).mp
    ⟨by decide +kernel, by decide +kernel, by decide +kernel, by decide +kernel,
      by decide +kernel⟩

/-- With 21 GiB free the plan promises four requests, 12.25 GiB, and gives them a pool of 0.10 of
the box, 12.1 GiB. With 110 GiB free an operator's 0.176 becomes 0.18. -/
theorem planned_pool_not_honourable :
    (let request := gibBox (21 * 2 ^ 30) (3 / 4)
     let plan := vllmPlan plainText request
     plan.refusal = none ∧ plan.utilization = some (1 / 10) ∧ plan.maxNumSeqs = some 4 ∧
      ¬ request.Honourable (121 * 2 ^ 30) (21 * 2 ^ 30) 32768 gibProfile (1 / 10) 4) ∧
    let request := gibBox (110 * 2 ^ 30) (22 / 125)
    let plan := vllmPlan plainText request
    plan.refusal = none ∧ plan.utilization = some (9 / 50) ∧ plan.maxNumSeqs = some 8 ∧
      ¬ request.Honourable (121 * 2 ^ 30) (110 * 2 ^ 30) 32768 gibProfile (9 / 50) 8 := by
  refine ⟨⟨by decide +kernel, by decide +kernel, by decide +kernel, ?_⟩, by decide +kernel,
    by decide +kernel, by decide +kernel, ?_⟩
  · intro hplan
    exact absurd hplan.holds (by decide +kernel)
  · intro hplan
    exact absurd hplan.operator (by decide +kernel)

end StartRequest

end LlmContext

end BrokerParrot
