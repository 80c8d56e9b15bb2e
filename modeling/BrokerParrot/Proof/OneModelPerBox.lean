import Mathlib.Data.List.Induction
import Mathlib.Tactic.Linarith
import BrokerParrot.ModelLease

/-!
# One model per box

Two processes on one box never both believe, at the same time, that they may keep different models
in VRAM.

The invariant is that the file backs every belief that is still good: the resident model is the
believed one and the holder's entry carries the believed expiry.
-/

namespace BrokerParrot

open OrdDict

variable {event : LeaseEvent}

namespace LeaseState

def Backs (state : LeaseState) (holder : String) (grant : Grant) : Prop :=
  state.model = some grant.modelId ∧ state.holders.get? holder = some grant.expiry

variable {state : LeaseState} {holder other modelId : String} {grant : Grant} {now ttlS : ℚ}

theorem get?_live (hentry : state.holders.get? other = some grant.expiry)
    (hlive : now < grant.expiry) : (state.live now).get? other = some grant.expiry := by
  unfold live
  rw [get?_filter, hentry]
  simp [hlive]

theorem others_not_isEmpty (hentry : state.holders.get? other = some grant.expiry)
    (hlive : now < grant.expiry) (hne : other ≠ holder) :
    (state.others holder now).isEmpty = false := by
  rw [← Bool.not_eq_true]
  intro hempty
  have hnone := get?_of_isEmpty hempty other
  unfold others at hnone
  rw [get?_filter, get?_live hentry hlive] at hnone
  simp [hne] at hnone

theorem backs_of_decide_granted (hgranted : (state.decide modelId holder now ttlS).1 = true) :
    (state.decide modelId holder now ttlS).2.Backs holder ⟨modelId, now + ttlS⟩ := by
  unfold decide at hgranted ⊢
  by_cases hsame : state.model = some modelId
  · rw [if_pos hsame]
    exact ⟨rfl, get?_insert_self _ _ _⟩
  · rw [if_neg hsame] at hgranted ⊢
    by_cases halone : (state.others holder now).isEmpty
    · rw [if_pos halone]
      exact ⟨rfl, get?_insert_self _ _ _⟩
    · rw [if_neg halone] at hgranted
      exact absurd hgranted Bool.false_ne_true

section

variable (hbacks : state.Backs other grant)

include hbacks

theorem Backs.decide_of_ne (hlive : now < grant.expiry) (hne : other ≠ holder) :
    (state.decide modelId holder now ttlS).2.Backs other grant := by
  obtain ⟨hmodel, hentry⟩ := hbacks
  unfold decide
  by_cases hsame : state.model = some modelId
  · rw [if_pos hsame]
    refine ⟨hsame.symm.trans hmodel, ?_⟩
    rw [get?_insert_of_ne _ _ hne]
    exact get?_live hentry hlive
  · rw [if_neg hsame, others_not_isEmpty hentry hlive hne, if_neg Bool.false_ne_true]
    exact ⟨hmodel, get?_live hentry hlive⟩

theorem Backs.decide_denied (hlive : now < grant.expiry)
    (hdenied : (state.decide modelId holder now ttlS).1 = false) :
    (state.decide modelId holder now ttlS).2.Backs other grant := by
  unfold decide at hdenied ⊢
  split at hdenied
  · exact absurd hdenied.symm Bool.false_ne_true
  split at hdenied
  · exact absurd hdenied.symm Bool.false_ne_true
  · rename_i hother halone
    rw [if_neg hother, if_neg halone]
    exact ⟨hbacks.1, get?_live hbacks.2 hlive⟩

theorem Backs.releaseState_of_ne (hne : other ≠ holder) :
    (state.releaseState holder).Backs other grant := by
  obtain ⟨hmodel, hentry⟩ := hbacks
  have hkept : (state.holders.erase holder).get? other = some grant.expiry := by
    rw [get?_erase_of_ne _ hne, hentry]
  have hheld : (state.holders.erase holder).isEmpty ≠ true := by
    intro hempty
    rw [get?_of_isEmpty hempty] at hkept
    cases hkept
  refine ⟨?_, hkept⟩
  simp only [releaseState, hheld, hmodel]
  simp

end

/-! The calls of another holder, whose clock was read no later than they commit. -/

section

variable {expiry : ℚ}

theorem Backs.txn_of_ne (hbacks : state.Backs other grant) (lease : ModelLease)
    (htimely : event.Timely) (hne : other ≠ lease.holder) (hlive : event.commit < grant.expiry) :
    (lease.txn event.call state).2.Backs other grant := by
  obtain ⟨holder, call, contended, commit⟩ := event
  cases call with
  | acquire | renew => exact hbacks.decide_of_ne (lt_of_le_of_lt htimely hlive) hne
  | release => exact hbacks.releaseState_of_ne hne

theorem get?_decide_of_ne (hne : other ≠ holder) (hentry : state.holders.get? other = some expiry)
    (hlive : now < expiry) :
    (state.decide modelId holder now ttlS).2.holders.get? other = some expiry := by
  have hgrant : state.holders.get? other = some (Grant.mk modelId expiry).expiry := hentry
  have hkept : (state.live now).get? other = some expiry := get?_live hgrant hlive
  unfold decide
  by_cases hsame : state.model = some modelId
  · rwa [if_pos hsame, get?_insert_of_ne _ _ hne]
  · have hothers : (state.others holder now).isEmpty = false :=
      others_not_isEmpty hgrant hlive hne
    rwa [if_neg hsame, hothers, if_neg Bool.false_ne_true]

theorem get?_txn_of_ne (lease : ModelLease) (htimely : event.Timely) (hne : other ≠ lease.holder)
    (hentry : state.holders.get? other = some expiry) (hlive : event.commit < expiry) :
    (lease.txn event.call state).2.holders.get? other = some expiry := by
  obtain ⟨holder, call, contended, commit⟩ := event
  cases call with
  | acquire | renew => exact get?_decide_of_ne hne hentry (lt_of_le_of_lt htimely hlive)
  | release =>
    change (state.holders.erase lease.holder).get? other = some expiry
    rw [get?_erase_of_ne _ hne, hentry]

theorem get?_of_decide (hne : other ≠ holder)
    (hentry : (state.decide modelId holder now ttlS).2.holders.get? other = some expiry) :
    state.holders.get? other = some expiry := by
  have hlive : (state.live now).get? other = some expiry →
      state.holders.get? other = some expiry := by
    intro hkept
    unfold live at hkept
    rw [get?_filter] at hkept
    exact (Option.filter_eq_some_iff.mp hkept).1
  unfold decide at hentry
  split at hentry
  · rw [get?_insert_of_ne _ _ hne] at hentry
    exact hlive hentry
  · split at hentry
    · rw [get?_insert_of_ne _ _ hne] at hentry
      cases hentry
    · exact hlive hentry

theorem get?_of_txn (lease : ModelLease) (call : LeaseCall) (hne : other ≠ lease.holder)
    (hentry : (lease.txn call state).2.holders.get? other = some expiry) :
    state.holders.get? other = some expiry := by
  cases call with
  | acquire | renew => exact get?_of_decide hne hentry
  | release =>
    change (state.holders.erase lease.holder).get? other = some expiry at hentry
    rwa [get?_erase_of_ne _ hne] at hentry

end

end LeaseState

namespace LeaseBox

theorem state_step (ttlS : ℚ) (box : LeaseBox) (event : LeaseEvent) :
    (box.step ttlS event).body.state =
      if event.contended then
        box.body.state
      else
        ((ModelLease.mk event.holder ttlS).txn event.call box.body.state).2 := by
  obtain ⟨holder, call, contended, commit⟩ := event
  cases call <;> cases contended <;> rfl

def Backed (box : LeaseBox) (time : ℚ) : Prop :=
  ∀ holder grant, box.granted holder = some grant → time < grant.expiry →
    box.body.state.Backs holder grant

variable {box : LeaseBox} {time ttlS : ℚ}

theorem backed_opened (body : LeaseBody) (time : ℚ) : (opened body).Backed time := by
  intro holder grant hgrant
  cases hgrant

section

variable (hbacked : box.Backed time)

include hbacked

theorem Backed.mono {later : ℚ} (hle : time ≤ later) : box.Backed later := by
  intro holder grant hgrant hlive
  exact hbacked holder grant hgrant (hle.trans_lt hlive)

theorem Backed.acquired (lease : ModelLease) (modelId : String) {now : ℚ} (hnow : now ≤ time)
    (contended : Bool) :
    (box.acquired lease modelId now (lease.acquire modelId now contended box.body)).Backed
      time := by
  intro other grant hgrant hlive
  have hseen : now < grant.expiry := hnow.trans_lt hlive
  unfold ModelLease.acquire at hgrant ⊢
  cases contended with
  | true => exact hbacked other grant hgrant hlive
  | false =>
    cases hdecide : (box.body.state.decide modelId lease.holder now lease.ttlS).1 with
    | false =>
      have hold : box.granted other = some grant := by
        simpa [LeaseBox.acquired, LeaseBody.update, hdecide] using hgrant
      exact (hbacked other grant hold hlive).decide_denied hseen hdecide
    | true =>
      -- The caller's own grant is the new one; the others' entries survive the decision.
      by_cases hholder : other = lease.holder
      · subst hholder
        have hnew : grant = ⟨modelId, now + lease.ttlS⟩ := by
          simpa [LeaseBox.acquired, LeaseBody.update, hdecide, eq_comm] using hgrant
        rw [hnew]
        exact LeaseState.backs_of_decide_granted hdecide
      · have hold : box.granted other = some grant := by
          simpa [LeaseBox.acquired, LeaseBody.update, hdecide, hholder] using hgrant
        exact (hbacked other grant hold hlive).decide_of_ne hseen hholder

theorem Backed.released (holder : String) (contended : Bool) (commit : ℚ) :
    (box.step ttlS ⟨holder, .release, contended, commit⟩).Backed time := by
  intro other grant hgrant hlive
  cases contended with
  | true => exact hbacked other grant hgrant hlive
  | false =>
    by_cases hholder : other = holder
    · simp [step, hholder] at hgrant
    · have hold : box.granted other = some grant := by
        simpa [step, hholder] using hgrant
      exact (hbacked other grant hold hlive).releaseState_of_ne hholder

theorem Backed.step (hle : time ≤ event.commit) (htimely : event.Timely) :
    (box.step ttlS event).Backed event.commit := by
  have hcommit : box.Backed event.commit := hbacked.mono hle
  obtain ⟨holder, call, contended, commit⟩ := event
  cases call with
  | acquire modelId | renew modelId =>
    exact hcommit.acquired ⟨holder, ttlS⟩ modelId htimely contended
  | release => exact hcommit.released holder contended commit

end

theorem backed_run (body : LeaseBody) {history : List LeaseEvent}
    (hserial : history.Pairwise fun earlier later => earlier.commit ≤ later.commit)
    (htimely : ∀ event ∈ history, event.Timely) (hpast : ∀ event ∈ history, event.commit ≤ time) :
    (run ttlS (opened body) history).Backed time := by
  induction history using List.reverseRecOn generalizing time with
  | nil => exact backed_opened body time
  | append_singleton history event ih =>
    rw [List.pairwise_append] at hserial
    have hbefore : (run ttlS (opened body) history).Backed event.commit := by
      refine ih hserial.1 (fun other hmem => htimely other (by simp [hmem])) ?_
      intro other hmem
      exact hserial.2.2 other hmem event (by simp)
    have hstep : (run ttlS (opened body) (history ++ [event])).Backed event.commit := by
      unfold run at hbefore ⊢
      rw [List.foldl_append]
      exact hbefore.step le_rfl (htimely event (by simp))
    exact hstep.mono (hpast event (by simp))

/-- **One model per box.** At no time are two grants for different models both good, whatever the
file held at first, however the calls of the holders interleave and however late they commit. -/
theorem grants_share_model (ttlS : ℚ) (body : LeaseBody) (history : List LeaseEvent)
    (hserial : history.Pairwise fun earlier later => earlier.commit ≤ later.commit)
    (htimely : ∀ event ∈ history, event.Timely) (time : ℚ)
    (hpast : ∀ event ∈ history, event.commit ≤ time) (left right : String)
    (leftGrant rightGrant : Grant)
    (hleft : (run ttlS (opened body) history).granted left = some leftGrant)
    (hright : (run ttlS (opened body) history).granted right = some rightGrant)
    (hleftLive : time < leftGrant.expiry) (hrightLive : time < rightGrant.expiry) :
    leftGrant.modelId = rightGrant.modelId := by
  have hbacked : (run ttlS (opened body) history).Backed time :=
    backed_run body hserial htimely hpast
  have hleftModel := (hbacked left leftGrant hleft hleftLive).1
  have hrightModel := (hbacked right rightGrant hright hrightLive).1
  exact Option.mem_unique hleftModel hrightModel

/-- Two workers share a model after a third one's swap, the second on a clock read before the
first one's commit. -/
theorem grants_share_model_swap :
    let history : List LeaseEvent :=
      [⟨"c", .acquire "video" 0, false, 1⟩, ⟨"c", .release, false, 3⟩,
        ⟨"a", .acquire "image" 4, false, 6⟩, ⟨"b", .acquire "image" 5, false, 7⟩]
    let box := run 120 (opened .blank) history
    ∃ left right, box.granted "a" = some left ∧ box.granted "b" = some right ∧
      100 < left.expiry ∧ 100 < right.expiry ∧ left.modelId = right.modelId := by
  intro history box
  have hleft : box.granted "a" = some ⟨"image", 124⟩ := by decide +kernel
  have hright : box.granted "b" = some ⟨"image", 125⟩ := by decide +kernel
  have hleftLive : (100 : ℚ) < 124 := by norm_num
  have hrightLive : (100 : ℚ) < 125 := by norm_num
  refine ⟨_, _, hleft, hright, hleftLive, hrightLive, ?_⟩
  have htimely : ∀ event ∈ history, event.Timely := by
    simp [history, LeaseEvent.Timely]
    norm_num
  have hpast : ∀ event ∈ history, event.commit ≤ 100 := by
    simp [history]
    norm_num
  exact grants_share_model 120 .blank history (by decide +kernel) htimely 100 hpast "a" "b" _ _
    hleft hright hleftLive hrightLive

end LeaseBox

end BrokerParrot
