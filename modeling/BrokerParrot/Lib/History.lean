
/-!
# Histories

A property of a state and the event that meets it, required at every event of a history.
-/

namespace History

variable {σ ε : Type} (step : σ → ε → σ)

def Throughout (holds : σ → ε → Prop) (init : σ) (history : List ε) : Prop :=
  ∀ before event after, history = before ++ event :: after →
    holds (before.foldl step init) event

variable {step} {holds fair : σ → ε → Prop} {init : σ} {inv : σ → Prop}

theorem throughout_nil : Throughout step holds init [] := by
  intro before event after hsplit
  exact absurd hsplit.symm (List.append_ne_nil_of_right_ne_nil _ (List.cons_ne_nil _ _))

theorem throughout_cons {event : ε} {rest : List ε} :
    Throughout step holds init (event :: rest) ↔
      holds init event ∧ Throughout step holds (step init event) rest := by
  constructor
  · intro hall
    refine ⟨hall [] event rest rfl, fun before later after hsplit => ?_⟩
    exact hall (event :: before) later after (by rw [hsplit, List.cons_append])
  · rintro ⟨hfirst, hrest⟩ before later after hsplit
    cases before with
    | nil =>
      obtain ⟨rfl, -⟩ := List.cons.inj hsplit
      exact hfirst
    | cons first before =>
      obtain ⟨rfl, htail⟩ := List.cons.inj hsplit
      exact hrest before later after htail

theorem throughout_iff
    (hstep : ∀ state event, inv state → holds state event → inv (step state event))
    (hiff : ∀ state event, inv state → (holds state event ↔ fair state event)) (hinit : inv init)
    (history : List ε) :
    Throughout step holds init history ↔ Throughout step fair init history := by
  induction history generalizing init with
  | nil => exact iff_of_true throughout_nil throughout_nil
  | cons event rest ih =>
    rw [throughout_cons, throughout_cons, ← hiff init event hinit]
    exact and_congr_right fun hholds => ih (hstep init event hinit hholds)

theorem throughout_of_invariant {allowed : ε → Prop}
    (hstep : ∀ state event, inv state → allowed event → inv (step state event))
    (hholds : ∀ state event, inv state → allowed event → holds state event) (hinit : inv init)
    {history : List ε} (hallowed : ∀ event ∈ history, allowed event) :
    Throughout step holds init history := by
  induction history generalizing init with
  | nil => exact throughout_nil
  | cons event rest ih =>
    have hevent := hallowed event List.mem_cons_self
    rw [throughout_cons]
    exact ⟨hholds init event hinit hevent, ih (hstep init event hinit hevent)
      fun later hlater => hallowed later (List.mem_cons_of_mem _ hlater)⟩

end History
