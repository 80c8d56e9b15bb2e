import BrokerParrot.ModelResidency

/-!
# The order of the residents

Several enforcers look at one box, and each has its own list of what is resident. The rank of a copy
and the duplicates do not depend on the order of the list, but copies of one rank are kept in its
order: where a rank straddles the cap, the lists decide.
-/

namespace BrokerParrot

open List

namespace ModelResidency

variable {residents order block rest : List Resident} {copy : Copy} {resident : Resident}
  {cap : ℕ} {desiredServer protectedServer : Option String}

/-! ### Copies -/

theorem nodup_eraseDups {α : Type} [BEq α] [LawfulBEq α] (items : List α) :
    items.eraseDups.Nodup := by
  -- Each step removes the head from the rest, so the induction is on the length.
  induction hlength : items.length using Nat.strong_induction_on generalizing items with
  | _ length ih =>
    cases items with
    | nil => exact nodup_nil
    | cons head tail =>
      rw [eraseDups_cons, nodup_cons]
      refine ⟨by simp, ih _ ?_ _ rfl⟩
      have := length_filter_le (fun other => !other == head) tail
      rw [length_cons] at hlength
      omega

theorem nodup_copies (residents : List Resident) : (copies residents).Nodup := nodup_eraseDups _

theorem mem_copies_iff :
    copy ∈ copies residents ↔ ∃ resident ∈ residents, resident.copy = copy := by
  unfold copies
  rw [mem_eraseDups, mem_map]

theorem copy_mem_copies (hmem : resident ∈ residents) : resident.copy ∈ copies residents :=
  mem_copies_iff.mpr ⟨resident, hmem, rfl⟩

theorem copies_perm (hperm : order.Perm residents) : (copies order).Perm (copies residents) := by
  refine (perm_ext_iff_of_nodup (nodup_copies _) (nodup_copies _)).mpr fun copy => ?_
  rw [mem_copies_iff, mem_copies_iff]
  simp only [hperm.mem_iff]

section

variable (hne : block ≠ []) (hblock : ∀ resident ∈ block, resident.copy = copy)
  (hrest : copy ∉ copies rest)

include hne hblock in
theorem copies_block : copies block = [copy] := by
  obtain ⟨head, tail, rfl⟩ := exists_cons_of_ne_nil hne
  obtain rfl : head.copy = copy := hblock head mem_cons_self
  have hnone : (tail.map Resident.copy).filter (fun other => !other == head.copy) = [] := by
    refine filter_eq_nil_iff.mpr fun other hother => ?_
    obtain ⟨resident, hmem, rfl⟩ := mem_map.mp hother
    simp [hblock resident (mem_cons_of_mem _ hmem)]
  unfold copies
  rw [map_cons, eraseDups_cons, hnone, eraseDups_nil]

include hne hblock hrest in
theorem copies_block_append : copies (block ++ rest) = copy :: copies rest := by
  have hkeeps : (rest.map Resident.copy).removeAll (block.map Resident.copy) =
      rest.map Resident.copy := by
    refine filter_eq_self.mpr fun other hother => ?_
    have hother : other ∈ copies rest := mem_eraseDups.mpr hother
    have hnotMem : other ∉ block.map Resident.copy := by
      intro hmem
      obtain ⟨resident, hresident, rfl⟩ := mem_map.mp hmem
      exact hrest (hblock resident hresident ▸ hother)
    simpa using hnotMem
  have hblocks := copies_block hne hblock
  unfold copies at hblocks ⊢
  rw [map_append, eraseDups_append, hblocks, hkeeps, singleton_append]

include hne hblock hrest in
theorem copies_append_block : copies (rest ++ block) = copies rest ++ [copy] := by
  have hkeeps : (block.map Resident.copy).removeAll (rest.map Resident.copy) =
      block.map Resident.copy := by
    refine filter_eq_self.mpr fun other hother => ?_
    obtain ⟨resident, hresident, rfl⟩ := mem_map.mp hother
    have hnotMem : resident.copy ∉ rest.map Resident.copy := by
      rw [hblock resident hresident]
      exact fun hmem => hrest (mem_eraseDups.mpr hmem)
    simpa using hnotMem
  have hblocks := copies_block hne hblock
  unfold copies at hblocks ⊢
  rw [map_append, eraseDups_append, hkeeps, hblocks]

end

/-! ### The duplicate rule -/

section

variable (cap : ℕ) (protectedServer : Option String) (residents : List Resident)

def spared (resident : Resident) : Bool :=
  (copies residents).length ≤ cap || protectedServer = some ollama ||
    !dupOnOllama residents resident

def contenders : List Resident := residents.filter (spared cap protectedServer residents)

variable {cap protectedServer residents}

theorem mem_dupModels_iff {model : String} :
    model ∈ dupModels residents ↔
      (ollama, model) ∈ copies residents ∧ (vllm, model) ∈ copies residents := by
  unfold dupModels
  simp only [mem_map, mem_filter, decide_eq_true_eq]
  constructor
  · rintro ⟨⟨server, _⟩, ⟨hmem, hserver, hvllm⟩, rfl⟩
    exact ⟨hserver ▸ hmem, hvllm⟩
  · rintro ⟨hollama, hvllm⟩
    exact ⟨(ollama, model), ⟨hollama, rfl, hvllm⟩, rfl⟩

theorem dupOnOllama_iff :
    dupOnOllama residents resident = true ↔ resident.server = ollama ∧
      (ollama, resident.model) ∈ copies residents ∧ (vllm, resident.model) ∈ copies residents := by
  unfold dupOnOllama
  rw [decide_eq_true_iff, mem_dupModels_iff]

theorem contenders_of_dups (hover : ¬ (copies residents).length ≤ cap)
    (hprotected : protectedServer ≠ some ollama) :
    contenders cap protectedServer residents =
      residents.filter fun resident => !dupOnOllama residents resident := by
  have hspared : spared cap protectedServer residents =
      fun resident => !dupOnOllama residents resident := by
    funext resident
    simp [spared, hover, hprotected]
  rw [contenders, hspared]

theorem dupModels_contenders (hover : ¬ (copies residents).length ≤ cap)
    (hprotected : protectedServer ≠ some ollama) :
    dupModels (contenders cap protectedServer residents) = [] := by
  refine eq_nil_iff_forall_not_mem.mpr fun model hmodel => ?_
  obtain ⟨hollama, hvllm⟩ := mem_dupModels_iff.mp hmodel
  obtain ⟨resident, hmem, hcopy⟩ := mem_copies_iff.mp hollama
  obtain ⟨other, hother, hcopy'⟩ := mem_copies_iff.mp hvllm
  obtain ⟨hmem, hspared⟩ := mem_filter.mp hmem
  have hvllm : (vllm, resident.model) ∈ copies residents := by
    have hmodels : resident.model = model := congrArg Prod.snd hcopy
    rw [hmodels, ← hcopy']
    exact copy_mem_copies (mem_filter.mp hother).1
  have hserver : resident.server = ollama := congrArg Prod.fst hcopy
  have hdup : dupOnOllama residents resident = true :=
    dupOnOllama_iff.mpr ⟨hserver, hserver ▸ copy_mem_copies hmem, hvllm⟩
  simp [spared, hover, hprotected, hdup] at hspared

end

/-! ### The decision -/

section

variable (cap : ℕ) (desiredServer protectedServer : Option String) (residents : List Resident)

abbrev contestants : List Copy := copies (contenders cap protectedServer residents)

abbrev contestRank : Copy → Rank :=
  rank desiredServer protectedServer (contenders cap protectedServer residents)

def Outranked (copy : Copy) : Prop :=
  cap ≤ TopRank.ahead (contestRank cap desiredServer protectedServer residents)
    (contestants cap protectedServer residents) copy

def Loses (copy : Copy) : Prop :=
  copy ∈ copies residents ∧
    (copy ∉ contestants cap protectedServer residents ∨
      Outranked cap desiredServer protectedServer residents copy)

variable {cap desiredServer protectedServer residents}

theorem not_mem_keep_iff (hmem : resident ∈ residents) :
    resident.copy ∉ keep cap desiredServer protectedServer residents ↔
      cap ≤ TopRank.ahead (rank desiredServer protectedServer residents) (copies residents)
        resident.copy := by
  unfold keep
  rw [TopRank.mem_top_iff (nodup_copies residents), not_and, not_lt]
  exact ⟨fun h => h (copy_mem_copies hmem), fun h _ => h⟩

theorem ahead_lt_of_length_le (hmem : resident ∈ residents)
    (hle : (copies residents).length ≤ cap) :
    TopRank.ahead (rank desiredServer protectedServer residents) (copies residents)
      resident.copy < cap :=
  (TopRank.ahead_lt (copy_mem_copies hmem)).trans_le (TopRank.above_add_level_le.trans hle)

theorem decideWithin_ranked (calls : ℕ)
    (hranked : dupModels residents = [] ∨ protectedServer = some ollama) :
    decideWithin cap desiredServer protectedServer (calls + 1) residents =
      if (copies residents).length ≤ cap then []
      else residents.filter fun resident =>
        resident.copy ∉ keep cap desiredServer protectedServer residents := by
  rw [decideWithin]
  have hrule : ¬ (dupModels residents ≠ [] ∧ protectedServer ≠ some ollama) := by tauto
  rw [if_neg hrule]

theorem decideEvictions_unfold :
    decideEvictions cap desiredServer protectedServer residents =
      if (copies residents).length ≤ cap then []
      else if dupModels residents ≠ [] ∧ protectedServer ≠ some ollama then
        residents.filter (dupOnOllama residents) ++
          decideEvictions cap desiredServer protectedServer
            (residents.filter fun resident => !dupOnOllama residents resident)
      else residents.filter fun resident =>
        resident.copy ∉ keep cap desiredServer protectedServer residents := by
  by_cases hrule : dupModels residents ≠ [] ∧ protectedServer ≠ some ollama
  · by_cases hover : (copies residents).length ≤ cap
    · rw [decideEvictions, decideWithin, if_pos hover, if_pos hover]
    · have hnone : dupModels (residents.filter fun resident =>
          !dupOnOllama residents resident) = [] := by
        rw [← contenders_of_dups hover hrule.2]
        exact dupModels_contenders hover hrule.2
      obtain ⟨calls, hcalls⟩ : ∃ calls, residents.length = calls + 1 := by
        refine Nat.exists_eq_succ_of_ne_zero fun hzero => hrule.1 ?_
        rw [length_eq_zero_iff.mp hzero]
        rfl
      rw [decideEvictions, decideWithin, if_neg hover, if_neg hover, if_pos hrule, if_pos hrule,
        decideEvictions, hcalls, decideWithin_ranked calls (Or.inl hnone),
        decideWithin_ranked _ (Or.inl hnone)]
  · have hranked : dupModels residents = [] ∨ protectedServer = some ollama := by tauto
    rw [decideEvictions, decideWithin_ranked _ hranked, if_neg hrule]

theorem mem_ranked_out_iff :
    (resident ∈ if (copies residents).length ≤ cap then []
      else residents.filter fun resident =>
        resident.copy ∉ keep cap desiredServer protectedServer residents) ↔
      resident ∈ residents ∧
        cap ≤ TopRank.ahead (rank desiredServer protectedServer residents) (copies residents)
          resident.copy := by
  split
  · rename_i hle
    constructor
    · exact fun hnone => absurd hnone not_mem_nil
    · rintro ⟨hmem, hahead⟩
      exact absurd hahead (not_le.mpr (ahead_lt_of_length_le hmem hle))
  · rw [mem_filter, decide_eq_true_iff]
    exact and_congr_right fun hmem => not_mem_keep_iff hmem

theorem mem_decideEvictions_iff :
    resident ∈ decideEvictions cap desiredServer protectedServer residents ↔
      resident ∈ residents ∧ (resident ∉ contenders cap protectedServer residents ∨
        Outranked cap desiredServer protectedServer residents resident.copy) := by
  unfold Outranked contestRank contestants
  rw [decideEvictions_unfold]
  by_cases hrule : ¬ (copies residents).length ≤ cap ∧ dupModels residents ≠ [] ∧
      protectedServer ≠ some ollama
  · -- The duplicates are dropped, and the second call finds none.
    obtain ⟨hover, hdups, hprotected⟩ := hrule
    have hcontenders := contenders_of_dups hover hprotected
    have hnone := dupModels_contenders hover hprotected
    rw [if_neg hover, if_pos ⟨hdups, hprotected⟩, ← hcontenders, decideEvictions,
      decideWithin_ranked _ (Or.inl hnone), mem_append, mem_ranked_out_iff, mem_filter]
    have hmem : resident ∈ contenders cap protectedServer residents ↔
        resident ∈ residents ∧ dupOnOllama residents resident = false := by
      rw [hcontenders, mem_filter, Bool.not_eq_true']
    by_cases hin : resident ∈ residents
    · cases hdup : dupOnOllama residents resident <;> simp [hmem, hdup, hin]
    · simp [hmem, hin]
  · -- Nothing is dropped: the first call ranks all residents, or finds few enough of them.
    have hself : contenders cap protectedServer residents = residents := by
      refine filter_eq_self.mpr fun resident _ => ?_
      rcases Classical.not_and_iff_not_or_not.mp hrule with hle | hrule
      · simp [spared, not_not.mp hle]
      · rcases Classical.not_and_iff_not_or_not.mp hrule with hdups | hprotected
        · simp [spared, dupOnOllama, not_not.mp hdups]
        · simp [spared, not_not.mp hprotected]
    have hfirst (dropped : List Resident) : (if (copies residents).length ≤ cap then []
        else if dupModels residents ≠ [] ∧ protectedServer ≠ some ollama then dropped
        else residents.filter fun resident =>
          resident.copy ∉ keep cap desiredServer protectedServer residents) =
        if (copies residents).length ≤ cap then []
        else residents.filter fun resident =>
          resident.copy ∉ keep cap desiredServer protectedServer residents := by
      split
      · rfl
      · rename_i hover
        exact if_neg fun hboth => hrule ⟨hover, hboth⟩
    rw [hself, hfirst, mem_ranked_out_iff]
    exact and_congr_right fun hmem => ⟨Or.inr, fun h => h.resolve_left (not_not.mpr hmem)⟩

theorem copy_mem_contenders_iff (hmem : resident ∈ residents) :
    resident.copy ∈ copies (contenders cap protectedServer residents) ↔
      resident ∈ contenders cap protectedServer residents := by
  refine ⟨fun hcopy => ?_, copy_mem_copies⟩
  obtain ⟨other, hother, hsame⟩ := mem_copies_iff.mp hcopy
  obtain ⟨hserver, hmodel⟩ := Prod.ext_iff.mp hsame
  refine mem_filter.mpr ⟨hmem, ?_⟩
  have hspared := (mem_filter.mp hother).2
  unfold spared dupOnOllama at hspared ⊢
  change other.server = resident.server at hserver
  change other.model = resident.model at hmodel
  rwa [hserver, hmodel] at hspared

theorem mem_evicted_iff_loses :
    copy ∈ copies (decideEvictions cap desiredServer protectedServer residents) ↔
      Loses cap desiredServer protectedServer residents copy := by
  constructor
  · intro hcopy
    obtain ⟨resident, hevicted, rfl⟩ := mem_copies_iff.mp hcopy
    obtain ⟨hmem, hgoes⟩ := mem_decideEvictions_iff.mp hevicted
    exact ⟨copy_mem_copies hmem,
      hgoes.imp_left fun hnot => mt (copy_mem_contenders_iff hmem).mp hnot⟩
  · rintro ⟨hcopy, hgoes⟩
    obtain ⟨resident, hmem, rfl⟩ := mem_copies_iff.mp hcopy
    exact copy_mem_copies (mem_decideEvictions_iff.mpr
      ⟨hmem, hgoes.imp_left fun hnot => mt (copy_mem_contenders_iff hmem).mpr hnot⟩)

theorem loses_contender_iff (hmem : copy ∈ contestants cap protectedServer residents) :
    Loses cap desiredServer protectedServer residents copy ↔
      Outranked cap desiredServer protectedServer residents copy := by
  obtain ⟨resident, hresident, rfl⟩ := mem_copies_iff.mp hmem
  have hcopy := copy_mem_copies (mem_filter.mp hresident).1
  exact ⟨fun hloses => hloses.2.resolve_left (not_not.mpr hmem), fun hout => ⟨hcopy, Or.inr hout⟩⟩

end

/-! ### Another order -/

section

variable (hperm : order.Perm residents)

include hperm

theorem dupOnOllama_perm : dupOnOllama order = dupOnOllama residents := by
  funext resident
  rw [Bool.eq_iff_iff, dupOnOllama_iff, dupOnOllama_iff]
  simp only [(copies_perm hperm).mem_iff]

theorem spared_perm : spared cap protectedServer order = spared cap protectedServer residents := by
  funext resident
  unfold spared
  rw [(copies_perm hperm).length_eq, dupOnOllama_perm hperm]

theorem contenders_perm :
    (contenders cap protectedServer order).Perm (contenders cap protectedServer residents) := by
  unfold contenders
  rw [spared_perm hperm]
  exact hperm.filter _

theorem rank_perm :
    rank desiredServer protectedServer order = rank desiredServer protectedServer residents := by
  funext copy
  have hrows : (rowsOf order copy).Perm (rowsOf residents copy) := hperm.filter _
  have hbusy : (rowsOf order copy).any Resident.busy =
      (rowsOf residents copy).any Resident.busy := by
    rw [Bool.eq_iff_iff, any_eq_true, any_eq_true]
    simp only [hrows.mem_iff]
  have hmru : ((rowsOf order copy).map Resident.mru).max? =
      ((rowsOf residents copy).map Resident.mru).max? := by
    refine Option.ext fun latest => ?_
    rw [max?_eq_some_iff, max?_eq_some_iff]
    simp only [(hrows.map Resident.mru).mem_iff]
  unfold rank
  dsimp only
  rw [hbusy, hmru]

end

section

variable {item : Copy}

theorem contenders_append (block rest : List Resident)
    (hperm : (block ++ rest).Perm residents) :
    contenders cap protectedServer (block ++ rest) =
      block.filter (spared cap protectedServer residents) ++
        rest.filter (spared cap protectedServer residents) := by
  unfold contenders
  rw [spared_perm hperm, filter_append]

variable (hitem : item ∈ contestants cap protectedServer residents)

include hitem

theorem contestants_block (hperm : (block ++ rest).Perm residents)
    (hblock : ∀ resident ∈ block, resident.copy = item)
    (hrest : ∀ resident ∈ rest, resident.copy ≠ item) :
    contestants cap protectedServer (block ++ rest) =
        item :: copies (rest.filter (spared cap protectedServer residents)) ∧
      contestants cap protectedServer (rest ++ block) =
        copies (rest.filter (spared cap protectedServer residents)) ++ [item] := by
  have hswap : (rest ++ block).Perm residents := perm_append_comm.trans hperm
  have hother : item ∉ copies (rest.filter (spared cap protectedServer residents)) := by
    intro hmem
    obtain ⟨resident, hresident, hcopy⟩ := mem_copies_iff.mp hmem
    exact hrest resident (mem_filter.mp hresident).1 hcopy
  have hne : block.filter (spared cap protectedServer residents) ≠ [] := by
    have hthere : item ∈ contestants cap protectedServer (block ++ rest) :=
      (copies_perm (contenders_perm hperm)).mem_iff.mpr hitem
    intro hnil
    rw [contestants, contenders_append block rest hperm, hnil, nil_append] at hthere
    exact hother hthere
  have hall : ∀ resident ∈ block.filter (spared cap protectedServer residents),
      resident.copy = item := fun resident hmem => hblock resident (mem_filter.mp hmem).1
  constructor
  · rw [contestants, contenders_append block rest hperm, copies_block_append hne hall hother]
  · rw [contestants, contenders_append rest block hswap, copies_append_block hne hall hother]

theorem straddled_orders
    (hlow : TopRank.above (contestRank cap desiredServer protectedServer residents)
      (contestants cap protectedServer residents) item < cap)
    (hhigh : cap < TopRank.above (contestRank cap desiredServer protectedServer residents)
        (contestants cap protectedServer residents) item +
      TopRank.level (contestRank cap desiredServer protectedServer residents)
        (contestants cap protectedServer residents) item) (hperm : (block ++ rest).Perm residents)
    (hblock : ∀ resident ∈ block, resident.copy = item)
    (hrest : ∀ resident ∈ rest, resident.copy ≠ item) :
    ¬ Loses cap desiredServer protectedServer (block ++ rest) item ∧
      Loses cap desiredServer protectedServer (rest ++ block) item := by
  obtain ⟨hfirst, hlast⟩ := contestants_block hitem hperm hblock hrest
  -- The counts of the straddled rank do not depend on the order.
  have hcopies : (item :: copies (rest.filter (spared cap protectedServer residents))).Perm
      (contestants cap protectedServer residents) :=
    hfirst ▸ copies_perm (contenders_perm hperm)
  rw [← TopRank.above_perm hcopies] at hlow hhigh
  rw [← TopRank.level_perm hcopies] at hhigh
  have hnodup : (item :: copies (rest.filter (spared cap protectedServer residents))).Nodup :=
    hfirst ▸ nodup_copies _
  obtain ⟨hin, hout⟩ := TopRank.top_straddled hnodup hlow hhigh
  rw [TopRank.mem_top_iff hnodup] at hin
  rw [TopRank.mem_top_iff (hlast ▸ nodup_copies _), not_and, not_lt] at hout
  have hrank : contestRank cap desiredServer protectedServer (block ++ rest) =
      contestRank cap desiredServer protectedServer residents := rank_perm (contenders_perm hperm)
  have hrank' : contestRank cap desiredServer protectedServer (rest ++ block) =
      contestRank cap desiredServer protectedServer residents :=
    rank_perm (contenders_perm (perm_append_comm.trans hperm))
  constructor
  · rw [loses_contender_iff (hfirst ▸ mem_cons_self), Outranked, hfirst, hrank, not_le]
    exact hin.2
  · rw [loses_contender_iff (hlast ▸ by simp), Outranked, hlast, hrank']
    exact hout (by simp)

end

/-- **The order of the residents.** Every order gives the same evictions if and only if no rank
straddles the cap among the copies that the duplicate rule leaves. -/
theorem evictions_order_free_iff (cap : ℕ) (desiredServer protectedServer : Option String)
    (residents : List Resident) :
    (∀ order : List Resident, order.Perm residents → ∀ copy,
      (copy ∈ copies (decideEvictions cap desiredServer protectedServer order) ↔
        copy ∈ copies (decideEvictions cap desiredServer protectedServer residents))) ↔
      TopRank.Settled (contestRank cap desiredServer protectedServer residents) cap
        (contestants cap protectedServer residents) := by
  constructor
  · intro hfree item hitem
    by_contra hstraddles
    obtain ⟨hlow, hhigh⟩ := not_or.mp hstraddles
    -- The rows of the straddled copy first, and then last.
    have hperm := filter_append_perm (fun resident : Resident => resident.copy = item)
      residents
    obtain ⟨hfirst, hlast⟩ := straddled_orders hitem (not_le.mp hlow) (not_le.mp hhigh) hperm
      (fun resident hmem => by simpa using (mem_filter.mp hmem).2)
      (fun resident hmem => by simpa using (mem_filter.mp hmem).2)
    have hsame := (hfree _ hperm item).trans
      (hfree _ (perm_append_comm.trans hperm) item).symm
    rw [mem_evicted_iff_loses, mem_evicted_iff_loses] at hsame
    exact hfirst (hsame.mpr hlast)
  · intro hsettled order hperm copy
    rw [mem_evicted_iff_loses, mem_evicted_iff_loses]
    have hranked : (contestants cap protectedServer order).Perm
        (contestants cap protectedServer residents) := copies_perm (contenders_perm hperm)
    have hrank : contestRank cap desiredServer protectedServer order =
        contestRank cap desiredServer protectedServer residents := rank_perm (contenders_perm hperm)
    by_cases hmem : copy ∈ contestants cap protectedServer residents
    · have hmem' := hranked.mem_iff.mpr hmem
      rw [loses_contender_iff hmem, loses_contender_iff hmem', Outranked, Outranked, hrank,
        hsettled.le_ahead_iff hmem, (hsettled.perm hranked).le_ahead_iff hmem',
        TopRank.above_perm hranked]
    · have hmem' := mt hranked.mem_iff.mp hmem
      unfold Loses
      rw [(copies_perm hperm).mem_iff]
      exact and_congr_right fun _ => iff_of_true (Or.inl hmem') (Or.inl hmem)

/-- vLLM and ComfyUI each hold a model, both idle and without a recency of their own. -/
theorem tied_residents_go_by_order :
    let served : Resident := { server := "vllm", model := "a" }
    let drawn : Resident := { server := "comfyui", model := "comfyui" }
    decideEvictions 1 (some "ollama") none [served, drawn] = [drawn] ∧
      decideEvictions 1 (some "ollama") none [drawn, served] = [served] := by
  decide +kernel

end ModelResidency

end BrokerParrot
