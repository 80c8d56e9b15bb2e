import Mathlib.Data.List.DropRight
import BrokerParrot.LlmIdleUnload

/-!
# A parked box is emptied

The watchdog remembers when the current run of busy ticks began. Nothing else delays it: every probe
and every lever is called in a `try` of its own, so a tick that does not hold off uses both levers.
-/

namespace BrokerParrot

open List

namespace ParkProg

variable {α : Type}

theorem attempt_ofExcept (result : Except CastError α) (fallback : α) :
    attempt (ofExcept result) fallback = pure (result.toOption.getD fallback) := by
  cases result <;> rfl

theorem bind_runs {β : Type} {prog : ParkProg α} {next : α → ParkProg β}
    {calls after : List ParkLever} {value : α} (hprog : prog calls = (.ok value, after)) :
    (prog >>= next) calls = next value after := by
  simp only [bind, ExceptT.bind, ExceptT.mk, StateT.bind, hprog]
  rfl

theorem attempt_call (lever : ParkLever) (ends : Except CastError Unit) (value fallback : α)
    (calls : List ParkLever) :
    ∃ result, attempt (do call lever ends; return value) fallback calls =
      (.ok result, calls ++ [lever]) := by
  cases ends with
  | ok => exact ⟨value, rfl⟩
  | error => exact ⟨fallback, rfl⟩

end ParkProg

namespace ParkReads

variable (text : PyText) (reads : ParkReads)

def Busy : Bool := 0 < (reads.ownWork text).toOption.getD 0

def listed : List String := (reads.modelNames text).toOption.getD []

def levers : List ParkLever :=
  (if reads.served = .ok true ∨ reads.containerRunning = .ok true then [.vllmStop] else []) ++
    if reads.listed text = [] then [] else [.ollamaUnload (reads.listed text)]

theorem vllmHalf_runs (calls : List ParkLever) :
    ∃ stopped, reads.vllmHalf calls = (.ok stopped, calls ++
      if reads.served = .ok true ∨ reads.containerRunning = .ok true then [.vllmStop] else []) := by
  have htrue {result : Except CastError Bool} :
      result = .ok true ↔ result.toOption.getD false = true := by
    rcases result with _ | _ | _ <;> simp [Except.toOption]
  unfold vllmHalf
  simp only [ParkProg.attempt_ofExcept, pure_bind, htrue]
  cases reads.served.toOption.getD false with
  | true => exact ParkProg.attempt_call _ _ _ _ _
  | false =>
    cases reads.containerRunning.toOption.getD false with
    | true => exact ParkProg.attempt_call _ _ _ _ _
    | false => exact ⟨false, congrArg (Prod.mk _) (append_nil calls).symm⟩

theorem ollamaHalf_runs (calls : List ParkLever) :
    ∃ unloaded, reads.ollamaHalf text calls = (.ok unloaded, calls ++
      if reads.listed text = [] then [] else [.ollamaUnload (reads.listed text)]) := by
  unfold ollamaHalf listed
  rcases reads.modelNames text with raised | _ | ⟨name, names⟩
  · exact ⟨[], congrArg (Prod.mk _) (append_nil calls).symm⟩
  · exact ⟨[], congrArg (Prod.mk _) (append_nil calls).symm⟩
  · exact ParkProg.attempt_call _ _ _ _ _

end ParkReads

namespace ParkQuiesce

variable (text : PyText)

def since (quiesce : ParkQuiesce) (reads : ParkReads) : Option ℚ :=
  if reads.Busy text then some (quiesce.holdingSince.getD reads.now) else none

/-- What one tick does: it keeps the start of the run, and calls both levers or none. -/
theorem tick_runs (quiesce : ParkQuiesce) (reads : ParkReads) :
    ∃ result, quiesce.tick text reads [] =
      (.ok ({ quiesce with holdingSince := quiesce.since text reads }, result),
        if (quiesce.since text reads).any fun began => reads.now - began < quiesce.holdOffMaxS then
          []
        else
          reads.levers text) := by
  obtain ⟨stopped, hstop⟩ := reads.vllmHalf_runs []
  rw [nil_append] at hstop
  obtain ⟨unloaded, hunload⟩ := reads.ollamaHalf_runs text
    (if reads.served = .ok true ∨ reads.containerRunning = .ok true then [.vllmStop] else [])
  have hsince : (if 0 < (reads.ownWork text).toOption.getD 0 then
      some (quiesce.holdingSince.getD reads.now) else none) = quiesce.since text reads := by
    simp [since, ParkReads.Busy]
  unfold tick
  simp only [ParkProg.attempt_ofExcept, pure_bind, hsince]
  split
  · exact ⟨(false, []), rfl⟩
  · exact ⟨(stopped, unloaded),
      (ParkProg.bind_runs hstop).trans (ParkProg.bind_runs hunload)⟩

def run (quiesce : ParkQuiesce) (ticks : List ParkReads) : ParkQuiesce :=
  ticks.foldl (fun quiesce reads =>
    match (quiesce.tick text reads []).1 with
    | .ok (after, _) => after
    | .error _ => quiesce) quiesce

theorem run_concat (quiesce : ParkQuiesce) (ticks : List ParkReads) (reads : ParkReads) :
    quiesce.run text (ticks ++ [reads]) =
      { quiesce.run text ticks with
        holdingSince := (quiesce.run text ticks).since text reads } := by
  obtain ⟨result, hticked⟩ := (quiesce.run text ticks).tick_runs text reads
  unfold run at hticked ⊢
  rw [foldl_append, foldl_cons, foldl_nil, hticked]

theorem run_eq (maxS : ℚ) (ticks : List ParkReads) :
    run text ⟨maxS, none⟩ ticks =
      ⟨maxS, (ticks.rtakeWhile (ParkReads.Busy text)).head?.map ParkReads.now⟩ := by
  induction ticks using List.reverseRecOn with
  | nil => rfl
  | append_singleton ticks reads ih =>
    rw [run_concat, ih, rtakeWhile_concat]
    unfold since
    split
    · cases ticks.rtakeWhile (ParkReads.Busy text) <;> rfl
    · rfl

def HoldsOff (maxS : ℚ) (ticks : List ParkReads) (reads : ParkReads) : Prop :=
  ∃ first rest, (ticks ++ [reads]).rtakeWhile (ParkReads.Busy text) = first :: rest ∧
    reads.now - first.now < maxS

end ParkQuiesce

end BrokerParrot
