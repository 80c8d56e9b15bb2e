import Mathlib.Data.List.Dedup
import BrokerParrot.Proof.EvictionOrder

/-!
# Enforcement leaves the keepers

The decision is made copy by copy, but the levers are not: the one of ollama unloads a model, those
of vLLM and ComfyUI clear the whole server, and a model inside a worker process has none. And the
duplicate rule drops copies before it counts.
-/

namespace BrokerParrot

open List

namespace ModelResidency

structure Levers.Work (levers : Levers) : Prop where
  unloadOllama : ∀ models box, levers.unloadOllama models box =
    box.filter fun resident => !(resident.server = ollama && models.contains resident.model)
  stopVllm : ∀ box, levers.stopVllm box = box.filter fun resident => resident.server ≠ vllm
  freeComfyui : ∀ box, levers.freeComfyui box =
    box.filter fun resident => resident.server ≠ comfyui

section

variable (enforcer : Enforcer) (residents : List Resident)

def Enforcer.Loses (copy : Copy) : Prop :=
  ModelResidency.Loses enforcer.cap enforcer.desiredServer.toOption.join
    enforcer.protectedServer.toOption.join residents copy

def Enforcer.contestants : List Copy :=
  ModelResidency.contestants enforcer.cap enforcer.protectedServer.toOption.join residents

structure Enforced (after : Box) : Prop where
  keepers : ∀ copy, copy ∈ copies after ↔
    copy ∈ copies residents ∧ copy ∉ copies (enforcer.evictions residents)
  count : (copies after).length = min enforcer.cap (copies residents).length
  shielded : ∀ server ∈ orNull enforcer.protectedServer.toOption.join,
    (∃ resident ∈ residents, resident.server = server) →
      ∃ resident ∈ after, resident.server = server

/-- Whatever has to go is on a server with a lever, a server that is cleared as a whole has no copy
that stays, and the duplicate rule leaves enough copies. -/
structure LeversFit : Prop where
  lever : ∀ copy, enforcer.Loses residents copy →
    copy.1 = ollama ∨ copy.1 = vllm ∨ copy.1 = comfyui
  whole : ∀ copy other, enforcer.Loses residents copy → copy.1 = vllm ∨ copy.1 = comfyui →
    other ∈ copies residents → other.1 = copy.1 → enforcer.Loses residents other
  enough : min enforcer.cap (copies residents).length ≤ (enforcer.contestants residents).length

def Removed (copy : Copy) : Prop :=
  (copy.1 = ollama ∧ enforcer.Loses residents copy) ∨
    ((copy.1 = vllm ∨ copy.1 = comfyui) ∧
      ∃ other, other.1 = copy.1 ∧ enforcer.Loses residents other)

variable {enforcer residents} {copy : Copy} {server : String}

theorem mem_sortedSet {texts : List String} {text : String} :
    text ∈ sortedSet texts ↔ text ∈ texts := by
  unfold sortedSet
  rw [mem_insertionSort, mem_dedup]

theorem mem_clear_iff {clear : Box → Box} {box : Box} (evict : List Resident) (resident : Resident)
    (hclear : clear box = box.filter fun resident => resident.server ≠ server) :
    (resident ∈ if evict.any (·.server = server) then clear box else box) ↔
      resident ∈ box ∧ ¬ (resident.server = server ∧ ∃ other ∈ evict, other.server = server) := by
  by_cases hany : ∃ other ∈ evict, other.server = server
  · rw [if_pos (by simpa using hany), hclear, mem_filter]
    simp [hany]
  · simp [hany]

section

variable {levers : Levers} (hwork : levers.Work) (evict : List Resident) (box : Box)
  (resident : Resident)

include hwork

theorem mem_unload_iff :
    (resident ∈ if sortedSet ((evict.filter (·.server = ollama)).map Resident.model) = [] then box
      else levers.unloadOllama
        (sortedSet ((evict.filter (·.server = ollama)).map Resident.model)) box) ↔
      resident ∈ box ∧ ¬ (resident.server = ollama ∧ resident.copy ∈ copies evict) := by
  have hnamed : resident.model ∈
      sortedSet ((evict.filter (·.server = ollama)).map Resident.model) ↔
        (ollama, resident.model) ∈ copies evict := by
    rw [mem_sortedSet, mem_copies_iff]
    simp only [mem_map, mem_filter, decide_eq_true_eq, Resident.copy, Prod.mk.injEq,
      and_assoc]
  have hcopy (hserver : resident.server = ollama) :
      resident.copy = (ollama, resident.model) := by rw [Resident.copy, hserver]
  split
  · rename_i hnil
    refine ⟨fun hmem => ⟨hmem, ?_⟩, And.left⟩
    rintro ⟨hserver, hevicted⟩
    rw [hcopy hserver, ← hnamed, hnil] at hevicted
    exact absurd hevicted not_mem_nil
  · rw [hwork.unloadOllama, mem_filter]
    refine and_congr_right fun _ => ?_
    rw [Bool.not_eq_true', Bool.and_eq_false_imp, not_and]
    simp only [decide_eq_true_eq, contains_eq_mem, decide_eq_false_iff_not]
    refine forall_congr' fun hserver => ?_
    rw [hcopy hserver, hnamed]

theorem mem_pull_iff :
    resident ∈ levers.pull evict box ↔ resident ∈ box ∧
      ¬ (resident.server = ollama ∧ resident.copy ∈ copies evict) ∧
      ¬ ((resident.server = vllm ∨ resident.server = comfyui) ∧
        ∃ other ∈ evict, other.server = resident.server) := by
  unfold Levers.pull
  rw [mem_clear_iff evict resident (hwork.freeComfyui _),
    mem_clear_iff evict resident (hwork.stopVllm _), mem_unload_iff hwork, and_assoc, and_assoc]
  refine and_congr_right fun _ => and_congr_right fun _ => ?_
  constructor
  · rintro ⟨hvllm, hcomfyui⟩ ⟨hserver | hserver, hother⟩
    · exact hvllm ⟨hserver, hserver ▸ hother⟩
    · exact hcomfyui ⟨hserver, hserver ▸ hother⟩
  · intro hwhole
    exact ⟨fun h => hwhole ⟨Or.inl h.1, h.1.symm ▸ h.2⟩,
      fun h => hwhole ⟨Or.inr h.1, h.1.symm ▸ h.2⟩⟩

end

theorem enforceOnce_box (box : Box) :
    (enforceOnce enforcer (.ok residents) box).2 =
      enforcer.levers.pull (enforcer.evictions residents) box := by
  unfold enforceOnce
  dsimp only
  split
  · rename_i hnone
    rw [hnone]
    rfl
  · rfl

theorem mem_evictions_iff :
    copy ∈ copies (enforcer.evictions residents) ↔ enforcer.Loses residents copy :=
  mem_evicted_iff_loses

theorem mem_copies_enforceOnce_iff (hwork : enforcer.levers.Work) :
    copy ∈ copies (enforceOnce enforcer (.ok residents) residents).2 ↔
      copy ∈ copies residents ∧ ¬ Removed enforcer residents copy := by
  have hafter (resident : Resident) :
      resident ∈ (enforceOnce enforcer (.ok residents) residents).2 ↔
        resident ∈ residents ∧ ¬ Removed enforcer residents resident.copy := by
    have hserver : (∃ other ∈ enforcer.evictions residents, other.server = resident.server) ↔
        ∃ other : Copy, other.1 = resident.copy.1 ∧ enforcer.Loses residents other := by
      simp only [← mem_evictions_iff, mem_copies_iff]
      constructor
      · rintro ⟨other, hmem, hsame⟩
        exact ⟨other.copy, hsame, other, hmem, rfl⟩
      · rintro ⟨-, hsame, other, hmem, rfl⟩
        exact ⟨other, hmem, hsame⟩
    rw [enforceOnce_box, mem_pull_iff hwork, mem_evictions_iff, hserver, ← not_or]
    rfl
  rw [mem_copies_iff, mem_copies_iff]
  simp only [hafter]
  constructor
  · rintro ⟨resident, ⟨hmem, hstays⟩, rfl⟩
    exact ⟨⟨resident, hmem, rfl⟩, hstays⟩
  · rintro ⟨⟨resident, hmem, rfl⟩, hstays⟩
    exact ⟨resident, ⟨hmem, hstays⟩, rfl⟩

theorem removed_iff_loses :
    (∀ copy ∈ copies residents, Removed enforcer residents copy ↔
        enforcer.Loses residents copy) ↔
      (∀ copy, enforcer.Loses residents copy →
        copy.1 = ollama ∨ copy.1 = vllm ∨ copy.1 = comfyui) ∧
      ∀ copy other, enforcer.Loses residents copy → copy.1 = vllm ∨ copy.1 = comfyui →
        other ∈ copies residents → other.1 = copy.1 → enforcer.Loses residents other := by
  constructor
  · intro hexact
    constructor
    · intro copy hloses
      rcases (hexact copy hloses.1).mpr hloses with ⟨hollama, -⟩ | ⟨hserver, -⟩
      · exact Or.inl hollama
      · exact Or.inr hserver
    · intro copy other hloses hserver hother hsame
      exact (hexact other hother).mp (Or.inr ⟨hsame ▸ hserver, copy, hsame.symm, hloses⟩)
  · rintro ⟨hlever, hwhole⟩ copy hmem
    constructor
    · rintro (⟨-, hloses⟩ | ⟨hserver, other, hsame, hloses⟩)
      · exact hloses
      · exact hwhole other copy hloses (hsame ▸ hserver) hmem hsame.symm
    · intro hloses
      rcases hlever copy hloses with hollama | hserver
      · exact Or.inl ⟨hollama, hloses⟩
      · exact Or.inr ⟨hserver, copy, rfl, hloses⟩

theorem keepers_iff (hwork : enforcer.levers.Work) :
    (∀ copy, copy ∈ copies (enforceOnce enforcer (.ok residents) residents).2 ↔
        copy ∈ copies residents ∧ copy ∉ copies (enforcer.evictions residents)) ↔
      ∀ copy ∈ copies residents, Removed enforcer residents copy ↔
        enforcer.Loses residents copy := by
  refine forall_congr' fun copy => ?_
  rw [mem_copies_enforceOnce_iff hwork, mem_evictions_iff, and_congr_right_iff]
  exact forall_congr' fun _ => not_iff_not

/-! ### How many stay, and which -/

theorem contestants_subset :
    enforcer.contestants residents ⊆ copies residents := by
  intro copy hmem
  obtain ⟨resident, hresident, rfl⟩ := mem_copies_iff.mp hmem
  exact copy_mem_copies (mem_filter.mp hresident).1

theorem length_contestants_le :
    (enforcer.contestants residents).length ≤ (copies residents).length :=
  ((nodup_copies _).subperm contestants_subset).length_le

variable (enforcer residents) in
def best : List Copy :=
  TopRank.top
    (contestRank enforcer.cap enforcer.desiredServer.toOption.join
      enforcer.protectedServer.toOption.join residents)
    enforcer.cap (enforcer.contestants residents)

theorem mem_best_iff :
    copy ∈ best enforcer residents ↔
      copy ∈ copies residents ∧ ¬ enforcer.Loses residents copy := by
  have hnodup : (enforcer.contestants residents).Nodup := nodup_copies _
  unfold best
  rw [TopRank.mem_top_iff hnodup]
  by_cases hmem : copy ∈ enforcer.contestants residents
  · have hloses : enforcer.Loses residents copy ↔ _ := loses_contender_iff hmem
    rw [hloses, Outranked, not_le]
    exact and_congr_left' ⟨fun _ => contestants_subset hmem, fun _ => hmem⟩
  · constructor
    · exact fun hbest => absurd hbest.1 hmem
    · rintro ⟨hcopy, hstays⟩
      exact absurd ⟨hcopy, Or.inl hmem⟩ hstays

theorem length_best :
    (best enforcer residents).length =
      min enforcer.cap (enforcer.contestants residents).length :=
  TopRank.length_top _ _

theorem protected_of_rank_le {desiredServer protectedServer : Option String}
    {ranked : List Resident} {low high : Copy}
    (hle : rank desiredServer protectedServer ranked low ≤
      rank desiredServer protectedServer ranked high)
    (hlow : orNull protectedServer = some low.1) : orNull protectedServer = some high.1 := by
  rw [rank, rank, Prod.Lex.toLex_le_toLex] at hle
  have hfirst : decide (orNull protectedServer = some low.1) ≤
      decide (orNull protectedServer = some high.1) := by
    rcases hle with hlt | ⟨heq, -⟩
    · exact hlt.le
    · exact heq.le
  exact of_decide_eq_true (Bool.eq_true_of_true_le (decide_eq_true hlow ▸ hfirst))

theorem best_shields (hcap : 1 ≤ enforcer.cap)
    (hserver : server ∈ orNull enforcer.protectedServer.toOption.join)
    (hheld : ∃ resident ∈ residents, resident.server = server) :
    ∃ copy ∈ best enforcer residents, copy.1 = server := by
  obtain ⟨resident, hmem, hresident⟩ := hheld
  have hprotected : enforcer.protectedServer.toOption.join = some server :=
    (Option.filter_eq_some_iff.mp hserver).1
  -- The duplicate rule spares it: it is not on ollama, or ollama is protected.
  have hspared : resident ∈ contenders enforcer.cap enforcer.protectedServer.toOption.join
      residents := by
    refine mem_filter.mpr ⟨hmem, ?_⟩
    by_cases hollama : server = ollama
    · simp [spared, hprotected, hollama]
    · simp [spared, dupOnOllama, hresident, hollama]
  have hcontests : resident.copy ∈ enforcer.contestants residents := copy_mem_copies hspared
  obtain ⟨copy, hbest, hranks⟩ : ∃ copy ∈ best enforcer residents,
      ∀ item ∈ enforcer.contestants residents, _ := TopRank.exists_best hcap
        (ne_nil_of_mem hcontests)
  refine ⟨copy, hbest, ?_⟩
  have hself : orNull enforcer.protectedServer.toOption.join = some resident.copy.1 :=
    hserver.trans (congrArg some hresident.symm)
  have hshields := protected_of_rank_le (hranks resident.copy hcontests) hself
  exact (Option.some.inj (hserver.symm.trans hshields)).symm

/-! ### The pass -/

/-- **Enforcement leaves the keepers.** A pass leaves exactly what was not evicted, within the cap
and with a copy on the protected server, if and only if the levers fit the decision. -/
theorem enforcement_leaves_keepers_iff (enforcer : Enforcer) (hwork : enforcer.levers.Work)
    (hcap : 1 ≤ enforcer.cap) (residents : List Resident) :
    Enforced enforcer residents (enforceOnce enforcer (.ok residents) residents).2 ↔
      LeversFit enforcer residents := by
  have hkeepers : (∀ copy, copy ∈ copies (enforceOnce enforcer (.ok residents) residents).2 ↔
      copy ∈ copies residents ∧ copy ∉ copies (enforcer.evictions residents)) ↔ _ :=
    (keepers_iff hwork).trans removed_iff_loses
  -- As soon as the keepers are right, the box holds the best of the ranked copies.
  have hcount (hkeeps : ∀ copy, copy ∈ copies (enforceOnce enforcer (.ok residents) residents).2 ↔
      copy ∈ copies residents ∧ copy ∉ copies (enforcer.evictions residents)) :
      (copies (enforceOnce enforcer (.ok residents) residents).2).length =
        min enforcer.cap (enforcer.contestants residents).length := by
    have hperm : (copies (enforceOnce enforcer (.ok residents) residents).2).Perm
        (best enforcer residents) := by
      refine (perm_ext_iff_of_nodup (nodup_copies _)
        (TopRank.nodup_top (nodup_copies _) _)).mpr fun copy => ?_
      rw [hkeeps, mem_evictions_iff]
      exact mem_best_iff.symm
    rw [hperm.length_eq, length_best]
  have hle : (enforcer.contestants residents).length ≤ (copies residents).length :=
    length_contestants_le
  constructor
  · intro henforced
    obtain ⟨hlever, hwhole⟩ := hkeepers.mp henforced.keepers
    have hlength := (hcount henforced.keepers).symm.trans henforced.count
    exact ⟨hlever, hwhole, by omega⟩
  · intro hfit
    have hkeeps := hkeepers.mpr ⟨hfit.lever, hfit.whole⟩
    have hlength := hcount hkeeps
    have henough := hfit.enough
    refine ⟨hkeeps, by omega, fun server hserver hheld => ?_⟩
    obtain ⟨copy, hbest, rfl⟩ := best_shields hcap hserver hheld
    have hstays := (hkeeps copy).mpr (by rw [mem_evictions_iff]; exact mem_best_iff.mp hbest)
    obtain ⟨resident, hmem, rfl⟩ := mem_copies_iff.mp hstays
    exact ⟨resident, hmem, rfl⟩

end

def workingLevers : Levers where
  unloadOllama models box :=
    box.filter fun resident => !(resident.server = ollama && models.contains resident.model)
  stopVllm box := box.filter fun resident => resident.server ≠ vllm
  freeComfyui box := box.filter fun resident => resident.server ≠ comfyui

/-- ollama holds two models and the older one goes. -/
theorem enforcement_leaves_keepers_iff_ollama :
    let enforcer : Enforcer := { label := "box", cap := 1, levers := workingLevers }
    let residents : List Resident := [⟨ollama, "old", 1, false⟩, ⟨ollama, "new", 2, false⟩]
    Enforced enforcer residents (enforceOnce enforcer (.ok residents) residents).2 := by
  intro enforcer residents
  have hwork : enforcer.levers.Work := ⟨fun _ _ => rfl, fun _ => rfl, fun _ => rfl⟩
  have hollama (copy : Copy) (hloses : enforcer.Loses residents copy) : copy.1 = ollama := by
    have hall : ∀ copy ∈ copies residents, copy.1 = ollama := by decide +kernel
    exact hall copy hloses.1
  refine (enforcement_leaves_keepers_iff enforcer hwork (by decide) residents).mpr
    ⟨fun copy hloses => Or.inl (hollama copy hloses), ?_, by decide +kernel⟩
  intro copy other hloses hserver
  rw [hollama copy hloses] at hserver
  exact absurd hserver (by decide)

/-- One vLLM that serves its model under two names counts as two copies. One of them is evicted, the
lever stops the server, and the box holds none. -/
theorem stopped_server_loses_keeper :
    let enforcer : Enforcer := { label := "box", cap := 1, levers := workingLevers }
    let residents : List Resident := [⟨vllm, "a", 0, false⟩, ⟨vllm, "b", 0, false⟩]
    enforcer.evictions residents = [⟨vllm, "b", 0, false⟩] ∧
      (enforceOnce enforcer (.ok residents) residents).2 = [] ∧
      ¬ Enforced enforcer residents (enforceOnce enforcer (.ok residents) residents).2 := by
  intro enforcer residents
  refine ⟨by decide +kernel, by decide +kernel, fun henforced => ?_⟩
  exact absurd henforced.count (by decide +kernel)

end ModelResidency

end BrokerParrot
