import BrokerParrot.LlmContext

/-!
# Grown windows fit in memory

A window is only grown to a size that is proved to fit. The ceiling rounds down what the memory
holds, the target rounds up what a job needs, and the target never passes the ceiling.
-/

namespace BrokerParrot

open Option

variable {tokens more : ℤ} {current : Option ℤ} {needs : List (Option ℤ)}

namespace LlmContext

/-! ### Rounding -/

theorem floorGranule_le (tokens granule : ℤ) : floorGranule tokens granule ≤ tokens := by
  unfold floorGranule
  split
  · rename_i hpos
    exact Int.ediv_mul_le tokens hpos.ne'
  · exact le_rfl

theorem floorGranule_nonneg (htokens : 0 ≤ tokens) (granule : ℤ) :
    0 ≤ floorGranule tokens granule := by
  unfold floorGranule
  split
  · rename_i hpos
    exact mul_nonneg (Int.ediv_nonneg htokens hpos.le) hpos.le
  · exact htokens

theorem floorGranule_mono (hle : tokens ≤ more) (granule : ℤ) :
    floorGranule tokens granule ≤ floorGranule more granule := by
  unfold floorGranule
  split
  · rename_i hpos
    exact mul_le_mul_of_nonneg_right (Int.ediv_le_ediv hpos hle) hpos.le
  · exact hle

theorem le_ceilGranule (tokens granule : ℤ) : tokens ≤ ceilGranule tokens granule := by
  unfold ceilGranule
  split
  · rename_i hpos
    have hgranule : (0 : ℚ) < granule := Int.cast_pos.mpr hpos
    have hceil : (tokens : ℚ) / granule ≤ ⌈(tokens : ℚ) / granule⌉ := Int.le_ceil _
    have hcast : (tokens : ℚ) ≤ ⌈(tokens : ℚ) / granule⌉ * granule := by
      calc (tokens : ℚ) = tokens / granule * granule := (div_mul_cancel₀ _ hgranule.ne').symm
        _ ≤ ⌈(tokens : ℚ) / granule⌉ * granule := mul_le_mul_of_nonneg_right hceil hgranule.le
    exact_mod_cast hcast
  · exact le_rfl

/-! ### The ceiling -/

section

variable {modelMax : Option ℤ} {granule ceiling available : ℤ} {box : OllamaBox} {served : ℤ}

theorem fittingWindow_le_tokens (modelMax : Option ℤ) (tokens granule : ℤ) :
    fittingWindow modelMax tokens granule ≤ tokens := by
  unfold fittingWindow
  split
  · split
    · assumption
    · exact floorGranule_le tokens granule
  · exact floorGranule_le tokens granule

theorem fittingWindow_le_limit {limit : ℤ} (hlimit : modelMax = some limit) :
    fittingWindow modelMax tokens granule ≤ limit := by
  subst hlimit
  change (if limit ≤ tokens then limit else floorGranule tokens granule) ≤ limit
  split
  · exact le_rfl
  · have := floorGranule_le tokens granule
    omega

theorem fittingWindow_mono (hle : tokens ≤ more) :
    fittingWindow modelMax tokens granule ≤ fittingWindow modelMax more granule := by
  cases modelMax with
  | none => exact floorGranule_mono hle granule
  | some limit =>
    by_cases hmore : limit ≤ more
    · have : fittingWindow (some limit) more granule = limit := if_pos hmore
      rw [this]
      exact fittingWindow_le_limit rfl
    · have hless : ¬ limit ≤ tokens := by omega
      have h : fittingWindow (some limit) tokens granule = floorGranule tokens granule :=
        if_neg hless
      have h' : fittingWindow (some limit) more granule = floorGranule more granule :=
        if_neg hmore
      rw [h, h']
      exact floorGranule_mono hle granule

theorem fittingWindow_of_neg (htokens : 0 ≤ tokens) (hle : tokens ≤ more)
    (hneg : fittingWindow modelMax tokens granule < 0) :
    fittingWindow modelMax more granule = fittingWindow modelMax tokens granule := by
  have hfloor := floorGranule_nonneg htokens granule
  cases modelMax with
  | none => exact absurd hneg (not_lt.mpr hfloor)
  | some limit =>
    by_cases hlimit : limit ≤ tokens
    · have h : fittingWindow (some limit) tokens granule = limit := if_pos hlimit
      have h' : fittingWindow (some limit) more granule = limit := if_pos (hlimit.trans hle)
      rw [h, h']
    · have h : fittingWindow (some limit) tokens granule = floorGranule tokens granule :=
        if_neg hlimit
      omega

theorem le_notBelow (ceiling : ℤ) (hserved : current = some served) :
    ∃ window ∈ notBelow ceiling current, served ≤ window := by
  subst hserved
  unfold notBelow
  split
  · exact ⟨served, rfl, le_rfl⟩
  · exact ⟨_, rfl, le_max_right _ _⟩

theorem notBelow_mono {higher window : ℤ} (hle : ceiling ≤ higher)
    (hneg : ceiling < 0 → higher = ceiling) (hwindow : window ∈ notBelow ceiling current) :
    ∃ grown ∈ notBelow higher current, window ≤ grown := by
  unfold notBelow at hwindow ⊢
  by_cases hzero : max higher (current.getD 0) = 0
  · rw [if_pos hzero]
    by_cases hbest : max ceiling (current.getD 0) = 0
    · rw [if_pos hbest] at hwindow
      exact ⟨window, hwindow, le_rfl⟩
    · -- Then the lower ceiling is negative, so both are the same.
      have hsame : higher = ceiling := hneg (by omega)
      exact absurd (hsame ▸ hzero) hbest
  · rw [if_neg hzero]
    refine ⟨_, rfl, ?_⟩
    split at hwindow
    · obtain rfl : current = some window := hwindow
      exact le_max_right _ _
    · obtain rfl : max ceiling (current.getD 0) = window := Option.some.inj hwindow
      exact max_le_max_right _ hle

theorem ollamaCeiling_of_known (box : OllamaBox) (granule : ℤ) {perToken weights : ℤ}
    (hperToken : box.perToken = some perToken) (hweights : box.weightsBytes = some weights)
    (havailable : box.availableBytes = some available) :
    ollamaCeiling box granule =
      if box.cacheBytes weights available ≤ 0 ∨ perToken ≤ 0 then box.current
      else notBelow
        (fittingWindow box.modelMax (box.cacheBytes weights available / perToken) granule)
        box.current := by
  unfold ollamaCeiling
  rw [hperToken, hweights, havailable]

theorem ollamaCeiling_of_unknown
    (hunknown : box.perToken = none ∨ box.weightsBytes = none ∨ box.availableBytes = none) :
    ollamaCeiling box granule = box.current := by
  unfold ollamaCeiling
  split
  · rename_i hperToken hweights havailable
    simp [hperToken, hweights, havailable] at hunknown
  · rfl

theorem ollamaCeiling_grown (hceiling : ollamaCeiling box granule = some ceiling)
    (hgrown : box.current.getD 0 < ceiling) :
    ∃ perToken weights available, box.perToken = some perToken ∧ box.weightsBytes = some weights ∧
      box.availableBytes = some available ∧ 0 < perToken ∧
      ceiling = fittingWindow box.modelMax (box.cacheBytes weights available / perToken)
        granule := by
  have hserved : box.current ≠ some ceiling := by
    intro hsame
    rw [hsame] at hgrown
    exact lt_irrefl _ hgrown
  unfold ollamaCeiling at hceiling
  split at hceiling
  · rename_i perToken weights available hperToken hweights havailable
    dsimp only at hceiling
    split at hceiling
    · exact absurd hceiling hserved
    · rename_i hroom
      refine ⟨perToken, weights, available, hperToken, hweights, havailable, by omega, ?_⟩
      unfold notBelow at hceiling
      split at hceiling
      · exact absurd hceiling hserved
      · have hbest := Option.some.inj hceiling
        omega
  · exact absurd hceiling hserved

theorem le_ollamaCeiling (granule : ℤ) (hserved : box.current = some served) :
    ∃ window ∈ ollamaCeiling box granule, served ≤ window := by
  unfold ollamaCeiling
  split
  · dsimp only
    split
    · exact ⟨served, hserved, le_rfl⟩
    · exact le_notBelow _ hserved
  · exact ⟨served, hserved, le_rfl⟩

theorem ollamaCeiling_mono {window : ℤ} (hle : available ≤ more)
    (hwindow : window ∈ ollamaCeiling { box with availableBytes := some available } granule) :
    ∃ grown ∈ ollamaCeiling { box with availableBytes := some more } granule,
      window ≤ grown := by
  -- Where the lower reading proves nothing, its ceiling is the window that is served.
  by_cases hknown : box.perToken = none ∨ box.weightsBytes = none
  · rw [ollamaCeiling_of_unknown (by tauto)] at hwindow
    exact le_ollamaCeiling granule hwindow
  obtain ⟨hperToken, hweights⟩ := not_or.mp hknown
  obtain ⟨perToken, hperToken⟩ := ne_none_iff_exists'.mp hperToken
  obtain ⟨weights, hweights⟩ := ne_none_iff_exists'.mp hweights
  have hceiling (bytes : ℤ) :=
    ollamaCeiling_of_known { box with availableBytes := some bytes } granule hperToken hweights rfl
  rw [hceiling] at hwindow
  split at hwindow
  · exact le_ollamaCeiling granule hwindow
  · rename_i hroom
    have hcache : 0 < box.cacheBytes weights available := not_le.mp (not_or.mp hroom).1
    have hpos : 0 < perToken := not_le.mp (not_or.mp hroom).2
    have hcaches : box.cacheBytes weights available ≤ box.cacheBytes weights more := by
      unfold OllamaBox.cacheBytes
      omega
    have hroom' : ¬ (box.cacheBytes weights more ≤ 0 ∨ perToken ≤ 0) := by omega
    have hmore : box.cacheBytes weights available / perToken ≤
        box.cacheBytes weights more / perToken :=
      Int.ediv_le_ediv hpos hcaches
    rw [hceiling]
    refine (if_neg hroom').symm ▸ ?_
    exact notBelow_mono (fittingWindow_mono hmore)
      (fittingWindow_of_neg (Int.ediv_nonneg hcache.le hpos.le) hmore) hwindow

end

/-! ### The target -/

theorem mem_reachable_iff {floor ceiling need : ℤ} :
    need ∈ reachable needs floor ceiling ↔ some need ∈ needs ∧ floor < need ∧ need ≤ ceiling := by
  unfold reachable
  rw [List.mem_filterMap]
  constructor
  · rintro ⟨queued, hmem, hneed⟩
    obtain ⟨rfl, hreach⟩ := filter_eq_some_iff.mp hneed
    exact ⟨hmem, by simpa using hreach⟩
  · rintro ⟨hmem, hreach⟩
    exact ⟨some need, hmem, filter_eq_some_iff.mpr ⟨rfl, by simpa using hreach⟩⟩

theorem switchTarget_spec {ceiling : Option ℤ} {granule target : ℤ}
    (htarget : switchTarget needs current ceiling granule = some target) :
    ∃ top, ceiling = some top ∧ current.getD 0 < target ∧ target ≤ top ∧
      ∀ need, some need ∈ needs → current.getD 0 < need → need ≤ top → need ≤ target := by
  obtain ⟨top, rfl, hmap⟩ := bind_eq_some_iff.mp htarget
  obtain ⟨largest, hmax, rfl⟩ := map_eq_some_iff.mp hmap
  obtain ⟨hmem, hlargest⟩ := List.max?_eq_some_iff.mp hmax
  obtain ⟨-, hfloor, htop⟩ := mem_reachable_iff.mp hmem
  have hround : largest ≤ min (ceilGranule largest granule) top :=
    le_min (le_ceilGranule largest granule) htop
  refine ⟨top, rfl, hfloor.trans_le hround, min_le_right _ _, ?_⟩
  intro need hneed hlow hhigh
  exact (hlargest need (mem_reachable_iff.mpr ⟨hneed, hlow, hhigh⟩)).trans hround

/-- **Grown windows fit.** A larger target stays within the model's limit and the memory, and holds
every need the box can reach. The ceiling grows with the memory. -/
theorem grown_window_fits (needs : List (Option ℤ)) (box : OllamaBox) (granule : ℤ) :
    (∀ target,
      switchTarget needs box.current (ollamaCeiling box granule) granule = some target →
        box.current.getD 0 < target ∧
        (∀ limit ∈ box.modelMax, box.current.getD 0 ≤ limit → target ≤ limit) ∧
        (∃ weights ∈ box.weightsBytes, ∃ perToken ∈ box.perToken,
          ∃ available ∈ box.availableBytes,
            weights + target * perToken + box.reserveBytes ≤ available + box.runnerBytes) ∧
        ∀ ceiling ∈ ollamaCeiling box granule, ∀ need, some need ∈ needs →
          box.current.getD 0 < need → need ≤ ceiling → need ≤ target) ∧
    (∀ available more, available ≤ more →
      ∀ window ∈ ollamaCeiling { box with availableBytes := some available } granule,
        ∃ grown ∈ ollamaCeiling { box with availableBytes := some more } granule,
          window ≤ grown) ∧
    ∀ served ∈ box.current, ∃ window ∈ ollamaCeiling box granule, served ≤ window := by
  refine ⟨?_, fun _ _ hle _ hwindow => ollamaCeiling_mono hle hwindow,
    fun _ hserved => le_ollamaCeiling granule hserved⟩
  intro target htarget
  obtain ⟨top, htop, hlow, hhigh, hneeds⟩ := switchTarget_spec htarget
  obtain ⟨perToken, weights, available, hperToken, hweights, havailable, hpos, hfit⟩ :=
    ollamaCeiling_grown htop (hlow.trans_le hhigh)
  refine ⟨hlow, ?_, ⟨weights, hweights, perToken, hperToken, available, havailable, ?_⟩, ?_⟩
  · intro limit hlimit _
    exact hhigh.trans (hfit.trans_le (fittingWindow_le_limit hlimit))
  · -- The target is at most the number of tokens that the memory beside the weights holds.
    have htokens : target ≤ box.cacheBytes weights available / perToken :=
      hhigh.trans (hfit.trans_le (fittingWindow_le_tokens _ _ _))
    have hcache : target * perToken ≤ box.cacheBytes weights available :=
      (Int.le_ediv_iff_mul_le hpos).mp htokens
    unfold OllamaBox.cacheBytes at hcache
    omega
  · intro ceiling hceiling
    obtain rfl : ceiling = top := mem_unique hceiling htop
    exact hneeds

/-- A box that serves 32768 tokens grows to 40960 for a queued need of 40000. -/
theorem grown_window_fits_queued_need :
    let box : OllamaBox :=
      ⟨some 32768, some 131072, some 16384, some (20 * 2 ^ 30), 21 * 2 ^ 30, some (40 * 2 ^ 30),
        8 * 2 ^ 30⟩
    switchTarget [some 40000] box.current (ollamaCeiling box) = some 40960 ∧
      ∃ weights ∈ box.weightsBytes, ∃ perToken ∈ box.perToken, ∃ available ∈ box.availableBytes,
        weights + 40960 * perToken + box.reserveBytes ≤ available + box.runnerBytes := by
  intro box
  have htarget : switchTarget [some 40000] box.current (ollamaCeiling box) = some 40960 := by
    decide +kernel
  exact ⟨htarget, ((grown_window_fits [some 40000] box contextGranule).1 40960 htarget).2.2.1⟩

end LlmContext

end BrokerParrot
