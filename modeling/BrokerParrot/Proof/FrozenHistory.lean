import Mathlib.Tactic.Linarith
import Mathlib.Data.List.Induction
import BrokerParrot.FrozenLeases

/-!
# What a frozen lease is

The sample that the detector carries from one snapshot to the next stands for the whole history: a
job is in it with a lease if the last snapshots all show that lease, and the time beside it is that
of the first of them.
-/

namespace BrokerParrot

open List

variable {frozenAfterS since : ℚ}

namespace FrozenLeases

variable {κ ν : Type}

def ShownSince (history : List (Snapshot κ ν)) (job : κ) (lease : ν) (time : ℚ) : Prop :=
  ∃ before first after, history = before ++ first :: after ∧ first.time ≤ time ∧
    (job, lease) ∈ first.rows ∧ ∀ later ∈ after, (job, lease) ∈ later.rows

theorem not_shownSince_nil (job : κ) (lease : ν) (time : ℚ) :
    ¬ ShownSince ([] : List (Snapshot κ ν)) job lease time := by
  rintro ⟨before, first, after, hsplit, -⟩
  exact append_ne_nil_of_right_ne_nil before (cons_ne_nil first after) hsplit.symm

variable {history : List (Snapshot κ ν)} {job : κ} {lease : ν} {snapshot : Snapshot κ ν}

theorem shownSince_concat {time : ℚ} :
    ShownSince (history ++ [snapshot]) job lease time ↔
      (job, lease) ∈ snapshot.rows ∧
        (snapshot.time ≤ time ∨ ShownSince history job lease time) := by
  constructor
  · rintro ⟨before, first, after, hsplit, htime, hfirst, hafter⟩
    rcases eq_nil_or_concat' after with rfl | ⟨after, last, rfl⟩
    · obtain ⟨-, hlast⟩ := append_inj' hsplit rfl
      obtain rfl := singleton_inj.mp hlast
      exact ⟨hfirst, Or.inl htime⟩
    · rw [← cons_append, ← append_assoc] at hsplit
      obtain ⟨rfl, hlast⟩ := append_inj' hsplit rfl
      obtain rfl := singleton_inj.mp hlast
      refine ⟨hafter snapshot (by simp), Or.inr ⟨before, first, after, rfl, htime, hfirst, ?_⟩⟩
      exact fun later hlater => hafter later (mem_append_left _ hlater)
  · rintro ⟨hshown, htime | ⟨before, first, after, rfl, htime, hfirst, hafter⟩⟩
    · exact ⟨history, snapshot, [], rfl, htime, hshown, by simp⟩
    · refine ⟨before, first, after ++ [snapshot], by simp, htime, hfirst, ?_⟩
      intro later hlater
      rcases mem_append.mp hlater with hlater | hlater
      · exact hafter later hlater
      · exact mem_singleton.mp hlater ▸ hshown

/-! ### The sample -/

variable [DecidableEq κ] [DecidableEq ν]

section

variable {prevSample : Sample κ ν} {now : ℚ} {job : κ} {lease : ν}

theorem get?_detectFrozenLeases {snapshot : Snapshot κ ν} :
    (detectFrozenLeases prevSample snapshot.rows now frozenAfterS).2.get? job =
        some (lease, since) ↔
      (job, lease) ∈ snapshot.rows ∧ since = frozenSince prevSample now job lease := by
  have hframe : ∀ (sample : Sample κ ν) (row : κ × ν) (other : κ), row.1 ≠ other →
      (sample.insert row.1 (row.2, frozenSince prevSample now row.1 row.2)).get? other =
        sample.get? other :=
    fun sample row other hne => OrdDict.get?_insert_of_ne sample _ (Ne.symm hne)
  unfold detectFrozenLeases
  by_cases hjob : job ∈ snapshot.rows.map Prod.fst
  · obtain ⟨⟨_, shown⟩, hrow, rfl⟩ := mem_map.mp hjob
    obtain ⟨before, -, -, hview⟩ := KeyedFold.view_of_mem _ Prod.fst
      (fun key (sample : Sample κ ν) => sample.get? key) hframe snapshot.nodupJobs hrow
      OrdDict.empty
    rw [hview, OrdDict.get?_insert_self, Option.some.injEq, Prod.mk.injEq]
    constructor
    · rintro ⟨rfl, rfl⟩
      exact ⟨hrow, rfl⟩
    · rintro ⟨hlease, rfl⟩
      have hsame := inj_on_of_nodup_map snapshot.nodupJobs hlease hrow rfl
      obtain rfl := (Prod.mk.inj hsame).2
      exact ⟨rfl, rfl⟩
  · rw [KeyedFold.view_of_not_mem _ Prod.fst
      (fun key (sample : Sample κ ν) => sample.get? key) hframe hjob]
    refine iff_of_false (fun hsome => nomatch hsome) fun hrow => hjob ?_
    exact mem_map_of_mem hrow.1

theorem mem_detectFrozenLeases {rows : List (κ × ν)} :
    (job, lease) ∈ (detectFrozenLeases prevSample rows now frozenAfterS).1 ↔
      (job, lease) ∈ rows ∧ frozenSince prevSample now job lease ≤ now - frozenAfterS := by
  unfold detectFrozenLeases
  rw [mem_filter, decide_eq_true_eq]
  refine and_congr_right fun _ => ?_
  constructor <;> intro h <;> linarith

theorem frozenSince_cases (prevSample : Sample κ ν) (now : ℚ) (job : κ) (lease : ν) :
    (prevSample.get? job = some (lease, frozenSince prevSample now job lease)) ∨
      ((∀ since, prevSample.get? job ≠ some (lease, since)) ∧
        frozenSince prevSample now job lease = now) := by
  unfold frozenSince
  cases hprev : prevSample.get? job with
  | none => exact Or.inr ⟨by simp, rfl⟩
  | some held =>
    dsimp only
    by_cases heq : held.1 = lease
    · rw [if_pos heq]
      exact Or.inl (by rw [← heq])
    · rw [if_neg heq]
      exact Or.inr ⟨fun since hsome => heq (congrArg Prod.fst (Option.some.inj hsome)), rfl⟩

end

theorem sampleAfter_concat (frozenAfterS : ℚ) (history : List (Snapshot κ ν))
    (snapshot : Snapshot κ ν) :
    sampleAfter frozenAfterS (history ++ [snapshot]) =
      (detectFrozenLeases (sampleAfter frozenAfterS history) snapshot.rows snapshot.time
        frozenAfterS).2 := by
  unfold sampleAfter
  rw [foldl_append]
  rfl

theorem exists_time_of_sampleAfter
    (hsample : (sampleAfter frozenAfterS history).get? job = some (lease, since)) :
    ∃ snapshot ∈ history, snapshot.time = since := by
  induction history using List.reverseRecOn generalizing since with
  | nil => exact nomatch hsample
  | append_singleton history snapshot ih =>
    rw [sampleAfter_concat, get?_detectFrozenLeases] at hsample
    obtain ⟨-, rfl⟩ := hsample
    rcases frozenSince_cases (sampleAfter frozenAfterS history) snapshot.time job lease with
      hheld | ⟨-, hnow⟩
    · obtain ⟨earlier, hmem, htime⟩ := ih hheld
      exact ⟨earlier, mem_append_left _ hmem, htime⟩
    · exact ⟨snapshot, by simp, hnow.symm⟩

theorem sampleAfter_le (hclock : (history ++ [snapshot]).Pairwise fun a b => a.time ≤ b.time)
    (hsample : (sampleAfter frozenAfterS history).get? job = some (lease, since)) :
    since ≤ snapshot.time := by
  obtain ⟨earlier, hmem, rfl⟩ := exists_time_of_sampleAfter hsample
  exact (pairwise_append.mp hclock).2.2 earlier hmem snapshot (mem_singleton_self _)

theorem sampleAfter_iff_shownSince (frozenAfterS : ℚ) (history : List (Snapshot κ ν))
    (hclock : history.Pairwise fun a b => a.time ≤ b.time) (job : κ) (lease : ν) (time : ℚ) :
    (∃ since, (sampleAfter frozenAfterS history).get? job = some (lease, since) ∧ since ≤ time) ↔
      ShownSince history job lease time := by
  induction history using List.reverseRecOn with
  | nil =>
    refine iff_of_false ?_ (not_shownSince_nil job lease time)
    rintro ⟨since, hsome, -⟩
    exact nomatch hsome
  | append_singleton history snapshot ih =>
    have ih := ih (pairwise_append.mp hclock).1
    rw [shownSince_concat, sampleAfter_concat, ← ih]
    simp only [get?_detectFrozenLeases, and_assoc, exists_and_left, exists_eq_left]
    refine and_congr_right fun _ => ?_
    rcases frozenSince_cases (sampleAfter frozenAfterS history) snapshot.time job lease with
      hheld | ⟨hnone, hnow⟩
    · -- The lease was there before: its clock goes on, and it started before this snapshot.
      have hle := sampleAfter_le hclock hheld
      constructor
      · exact fun hsince => Or.inr ⟨_, hheld, hsince⟩
      · rintro (htime | ⟨since, hsame, hsince⟩)
        · exact hle.trans htime
        · rw [hheld] at hsame
          exact (Prod.mk.inj (Option.some.inj hsame)).2 ▸ hsince
    · rw [hnow]
      refine (or_iff_left ?_).symm
      rintro ⟨since, hsame, -⟩
      exact hnone since hsame

/-- **Frozen leases.** A job is reported with a lease if and only if some snapshot, old enough,
showed the job with it and so did all that came after. -/
theorem frozen_lease_reported_iff (frozenAfterS : ℚ) (history : List (Snapshot κ ν))
    (snapshot : Snapshot κ ν)
    (hclock : (history ++ [snapshot]).Pairwise fun a b => a.time ≤ b.time) (job : κ) (lease : ν) :
    (job, lease) ∈ reported frozenAfterS history snapshot ↔
      ∃ before first after, history ++ [snapshot] = before ++ first :: after ∧
        first.time ≤ snapshot.time - frozenAfterS ∧ (job, lease) ∈ first.rows ∧
        ∀ later ∈ after, (job, lease) ∈ later.rows := by
  have hsample := sampleAfter_iff_shownSince frozenAfterS _ hclock job lease
    (snapshot.time - frozenAfterS)
  rw [sampleAfter_concat] at hsample
  simp only [get?_detectFrozenLeases, and_assoc, exists_and_left, exists_eq_left] at hsample
  exact mem_detectFrozenLeases.trans hsample

def onlyRow (time : ℚ) (lease : ℕ) : Snapshot String ℕ := ⟨time, [("j", lease)], by simp⟩

theorem frozen_lease_reported_iff_moves_once :
    [onlyRow 0 7, onlyRow 5 8, onlyRow 15 8].Pairwise (fun a b => a.time ≤ b.time) ∧
      ("j", 8) ∈ reported 10 [onlyRow 0 7, onlyRow 5 8] (onlyRow 15 8) := by
  have hclock : [onlyRow 0 7, onlyRow 5 8, onlyRow 15 8].Pairwise fun a b => a.time ≤ b.time := by
    norm_num [onlyRow]
  refine ⟨hclock, (frozen_lease_reported_iff 10 _ _ hclock "j" 8).mpr ?_⟩
  exact ⟨[onlyRow 0 7], onlyRow 5 8, [onlyRow 15 8], rfl, by norm_num [onlyRow], by simp [onlyRow],
    by simp [onlyRow]⟩

end FrozenLeases

end BrokerParrot
