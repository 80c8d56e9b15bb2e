import Mathlib.Data.List.Induction
import BrokerParrot.Lib.Prog

/-!
# Interleavings that amount to a serial order

A crew is a family of programs on one shared state. They are interleaved statement by statement, and
every statement runs at a time of its own.

It is like one when it looks, at every statement, as if the writers had been checked: a program that
has begun to change the view is not interrupted before it is settled, and whoever else is under way
would, run alone on the state as it is now, have come just as far and changed nothing.
-/

/-- A state with a clock, and what is looked at of it. The time is not. -/
structure ClockView (σ τ ν : Type) where
  tune : τ → σ → σ
  view : σ → ν
  view_tune : ∀ time s, view (tune time s) = view s

namespace ClockView

variable {σ τ ν : Type} (C : ClockView σ τ ν)

def Ticks (s t : σ) : Prop := ∃ time, t = C.tune time s

end ClockView

namespace Prog

variable {σ τ ν ε α β ι : Type} {C : ClockView σ τ ν}

def outcome : Prog σ ε α → Option (Except ε α)
  | ret value => some (.ok value)
  | raise error => some (.error error)
  | _ => none

def solo (C : ClockView σ τ ν) : List τ → Prog σ ε α → σ → σ × Prog σ ε α
  | [], prog, s => (s, prog)
  | time :: rest, prog, s =>
    solo C rest (prog.advance (C.tune time s)).2 (prog.advance (C.tune time s)).1

def SettledAs (C : ClockView σ τ ν) (result : Except ε α) : Prog σ ε α → Prop
  | ret value => result = .ok value
  | raise error => result = .error error
  | stmt set next => ∀ s, C.view (set s) = C.view s ∧ SettledAs C result (next s)
  | hang => False

def Settled (C : ClockView σ τ ν) (prog : Prog σ ε α) : Prop := ∃ result, prog.SettledAs C result

/-- What a statement does and how the program goes on depends on the view and the time only. -/
def Steady (C : ClockView σ τ ν) : Prog σ ε α → Prop
  | stmt set next => ∀ time s t, C.view s = C.view t →
      C.view (set (C.tune time s)) = C.view (set (C.tune time t)) ∧
        next (C.tune time s) = next (C.tune time t) ∧ Steady C (next (C.tune time s))
  | _ => True

section

variable {prog : Prog σ ε α} {result : Except ε α}

theorem settledAs_of_outcome (houtcome : prog.outcome = some result) :
    prog.SettledAs C result := by
  cases prog with
  | ret | raise => exact (Option.some.inj houtcome).symm
  | stmt | hang => cases houtcome

variable (hsettled : prog.SettledAs C result)

include hsettled

theorem SettledAs.of_outcome {other : Except ε α} (houtcome : prog.outcome = some other) :
    result = other := by
  cases prog with
  | ret | raise => exact hsettled.trans (Option.some.inj houtcome)
  | stmt | hang => cases houtcome

theorem SettledAs.advance (s : σ) :
    (prog.advance s).2.SettledAs C result ∧ C.view (prog.advance s).1 = C.view s := by
  cases prog with
  | stmt => exact ⟨(hsettled s).2, (hsettled s).1⟩
  | _ => exact ⟨hsettled, rfl⟩

theorem SettledAs.ends (s : σ) : ∃ t, Ends C.Ticks prog s result t ∧ C.view t = C.view s := by
  induction prog generalizing s with
  | ret value =>
    obtain rfl : result = .ok value := hsettled
    exact ⟨s, .ret Relation.ReflTransGen.refl, rfl⟩
  | raise error =>
    obtain rfl : result = .error error := hsettled
    exact ⟨s, .raise Relation.ReflTransGen.refl, rfl⟩
  | stmt set next ih =>
    obtain ⟨hset, hnext⟩ := hsettled s
    obtain ⟨t, hends, hview⟩ := ih s hnext (set s)
    exact ⟨t, .stmt Relation.ReflTransGen.refl hends, hview.trans hset⟩
  | hang => exact hsettled.elim

end

theorem Ends.earlier {R : σ → σ → Prop} {prog : Prog σ ε α} {result : Except ε α} {s t u : σ}
    (hsteps : Relation.ReflTransGen R s t) (hends : Ends R prog t result u) :
    Ends R prog s result u := by
  cases hends with
  | ret hmore => exact .ret (hsteps.trans hmore)
  | raise hmore => exact .raise (hsteps.trans hmore)
  | stmt hmore hrest => exact .stmt (hsteps.trans hmore) hrest

/-! ### Running alone -/

section

variable {prog : Prog σ ε α} {s t : σ}

theorem solo_snoc (times : List τ) (time : τ) (prog : Prog σ ε α) (s : σ) :
    solo C (times ++ [time]) prog s =
      (solo C times prog s).2.advance (C.tune time (solo C times prog s).1) := by
  induction times generalizing prog s with
  | nil => rfl
  | cons first rest ih => exact ih _ _

section

variable (hsteady : prog.Steady C)

include hsteady

theorem Steady.advance_congr (time : τ) (hview : C.view s = C.view t) :
    (prog.advance (C.tune time s)).2 = (prog.advance (C.tune time t)).2 ∧
      C.view (prog.advance (C.tune time s)).1 = C.view (prog.advance (C.tune time t)).1 := by
  cases prog with
  | stmt =>
    obtain ⟨hset, hnext, -⟩ := hsteady time s t hview
    exact ⟨hnext, hset⟩
  | _ =>
    refine ⟨rfl, ?_⟩
    change C.view (C.tune time s) = C.view (C.tune time t)
    rw [C.view_tune, C.view_tune, hview]

theorem Steady.advance (time : τ) (s : σ) : (prog.advance (C.tune time s)).2.Steady C := by
  cases prog with
  | stmt => exact (hsteady time s s rfl).2.2
  | _ => exact hsteady

theorem Steady.solo (times : List τ) (s : σ) : (solo C times prog s).2.Steady C := by
  induction times generalizing prog s with
  | nil => exact hsteady
  | cons time rest ih => exact ih (hsteady.advance time s) _

theorem Steady.solo_congr (times : List τ) (hview : C.view s = C.view t) :
    (Prog.solo C times prog s).2 = (Prog.solo C times prog t).2 ∧
      C.view (Prog.solo C times prog s).1 = C.view (Prog.solo C times prog t).1 := by
  induction times generalizing prog s t with
  | nil => exact ⟨rfl, hview⟩
  | cons time rest ih =>
    obtain ⟨hnext, hset⟩ := hsteady.advance_congr time hview
    have hrest := ih (hsteady.advance time s) hset
    unfold Prog.solo
    rwa [← hnext]

end

theorem ends_of_solo {result : Except ε α} (times : List τ)
    (hsettled : (solo C times prog s).2.SettledAs C result) :
    ∃ t, Ends C.Ticks prog s result t ∧ C.view t = C.view (solo C times prog s).1 := by
  induction times generalizing prog s with
  | nil => exact hsettled.ends s
  | cons time rest ih =>
    obtain ⟨t, hends, hview⟩ := ih hsettled
    refine ⟨t, ?_, hview⟩
    have htick : Relation.ReflTransGen C.Ticks s (C.tune time s) := .single ⟨time, rfl⟩
    cases prog with
    | stmt => exact .stmt htick hends
    | _ => exact hends.earlier htick

end

/-! ### Steady programs -/

section

theorem Steady.bind {prog : Prog σ ε α} {next : α → Prog σ ε β} (hprog : prog.Steady C)
    (hnext : ∀ value, (next value).Steady C) : (prog >>= next).Steady C := by
  induction prog with
  | ret value => exact hnext value
  | raise | hang => trivial
  | stmt set rest ih =>
    intro time s t hview
    obtain ⟨hset, hrest, hsteady⟩ := hprog time s t hview
    refine ⟨hset, ?_, ih _ hsteady⟩
    change (rest _).bind next = (rest _).bind next
    rw [hrest]

theorem Steady.read {look : σ → α}
    (hlook : ∀ time s t, C.view s = C.view t → look (C.tune time s) = look (C.tune time t)) :
    (Prog.read look : Prog σ ε α).Steady C := by
  intro time s t hview
  refine ⟨?_, congrArg ret (hlook time s t hview), trivial⟩
  change C.view (C.tune time s) = C.view (C.tune time t)
  rw [C.view_tune, C.view_tune, hview]

theorem Steady.write {set : σ → σ}
    (hset : ∀ time s t, C.view s = C.view t →
      C.view (set (C.tune time s)) = C.view (set (C.tune time t))) :
    (Prog.write set : Prog σ ε Unit).Steady C :=
  fun time s t hview => ⟨hset time s t hview, rfl, trivial⟩

theorem Steady.exec {run : σ → σ × α}
    (hrun : ∀ time s t, C.view s = C.view t →
      C.view (run (C.tune time s)).1 = C.view (run (C.tune time t)).1 ∧
        (run (C.tune time s)).2 = (run (C.tune time t)).2) :
    (Prog.exec run : Prog σ ε α).Steady C := by
  intro time s t hview
  obtain ⟨hset, hvalue⟩ := hrun time s t hview
  exact ⟨hset, congrArg ret hvalue, trivial⟩

theorem Steady.attempt {run : σ → Except ε σ}
    (hrun : ∀ time s t, C.view s = C.view t →
      (run (C.tune time s)).map C.view = (run (C.tune time t)).map C.view) :
    (Prog.attempt run).Steady C := by
  intro time s t hview
  have hsame := hrun time s t hview
  have hkept : C.view (C.tune time s) = C.view (C.tune time t) := by
    rw [C.view_tune, C.view_tune, hview]
  dsimp only [attempted]
  cases hs : run (C.tune time s) with
  | ok =>
    cases ht : run (C.tune time t) with
    | ok =>
      rw [hs, ht] at hsame
      exact ⟨Except.ok.inj hsame, rfl, trivial⟩
    | error => simp [hs, ht, Except.map] at hsame
  | error error =>
    cases ht : run (C.tune time t) with
    | ok => simp [hs, ht, Except.map] at hsame
    | error =>
      rw [hs, ht] at hsame
      exact ⟨hkept, congrArg raise (Except.error.inj hsame), trivial⟩

theorem Steady.ofExcept (result : Except ε α) : (Prog.ofExcept result : Prog σ ε α).Steady C := by
  cases result <;> trivial

theorem Steady.forEach {items : List β} {body : β → Prog σ ε Unit}
    (hbody : ∀ item, (body item).Steady C) : (Prog.forEach items body).Steady C := by
  induction items with
  | nil => trivial
  | cons item rest ih => exact (hbody item).bind fun _ => ih

end

end Prog

/-! ### Crews -/

structure Crew (ι σ ε α : Type) where
  shared : σ
  progs : ι → Prog σ ε α

namespace Crew

variable {ι σ τ ν ε α : Type} [DecidableEq ι] (C : ClockView σ τ ν)

def step (crew : Crew ι σ ε α) (move : ι × τ) : Crew ι σ ε α where
  shared := ((crew.progs move.1).advance (C.tune move.2 crew.shared)).1
  progs := Function.update crew.progs move.1
    ((crew.progs move.1).advance (C.tune move.2 crew.shared)).2

def run (crew : Crew ι σ ε α) (history : List (ι × τ)) : Crew ι σ ε α := history.foldl (step C) crew

def times (i : ι) (history : List (ι × τ)) : List τ :=
  (history.filter fun move => move.1 = i).map Prod.snd

def Wrote (crew : Crew ι σ ε α) (history : List (ι × τ)) (i : ι) : Prop :=
  ∃ before time, before ++ [(i, time)] <+: history ∧
    C.view (crew.run C (before ++ [(i, time)])).shared ≠ C.view (crew.run C before).shared

/-- Alone from the given state, the program would be where it is, and leave the view as it is. -/
def Replays (crew : Crew ι σ ε α) (history : List (ι × τ)) (s : σ) (i : ι) : Prop :=
  (Prog.solo C (times i history) (crew.progs i) s).2 = (crew.run C history).progs i ∧
    C.view (Prog.solo C (times i history) (crew.progs i) s).1 =
      C.view (crew.run C history).shared

/-- Alone on the state as it is now, the program would be where it is and have changed nothing. -/
def Undisturbed (crew : Crew ι σ ε α) (history : List (ι × τ)) (i : ι) : Prop :=
  crew.Replays C history (crew.run C history).shared i

/-- The program is settled, or every other one is settled or has written nothing and is not
disturbed. -/
def MayMove (crew : Crew ι σ ε α) (history : List (ι × τ)) (move : ι × τ) : Prop :=
  ((crew.run C history).progs move.1).Settled C ∨
    ∀ j, j ≠ move.1 → ((crew.run C history).progs j).Settled C ∨
      (¬ crew.Wrote C history j ∧ crew.Undisturbed C (history ++ [move]) j)

def Considerate (crew : Crew ι σ ε α) (history : List (ι × τ)) : Prop :=
  ∀ before move, before ++ [move] <+: history → crew.MayMove C before move

/-- The programs one after the other, the last of them first in the list. -/
def Serially (C : ClockView σ τ ν) (crew : Crew ι σ ε α) : List (ι × Except ε α) → σ → Prop
  | [], t => t = crew.shared
  | last :: before, t => ∃ s, crew.Serially C before s ∧
      Prog.Ends C.Ticks (crew.progs last.1) s last.2 t

section

variable {C : ClockView σ τ ν} {crew : Crew ι σ ε α} {history : List (ι × τ)} {i j : ι} {time : τ}
  {s t : σ}

theorem run_snoc (move : ι × τ) :
    crew.run C (history ++ [move]) = (crew.run C history).step C move :=
  List.foldl_concat _ _ _ _

theorem times_snoc_self : times i (history ++ [(i, time)]) = times i history ++ [time] := by
  simp [times]

theorem times_snoc_of_ne (hne : j ≠ i) : times j (history ++ [(i, time)]) = times j history := by
  simp [times, Ne.symm hne]

theorem progs_snoc_of_ne (hne : j ≠ i) :
    (crew.run C (history ++ [(i, time)])).progs j = (crew.run C history).progs j := by
  rw [run_snoc]
  exact Function.update_of_ne hne _ _

theorem progs_snoc_self :
    (crew.run C (history ++ [(i, time)])).progs i =
      (((crew.run C history).progs i).advance (C.tune time (crew.run C history).shared)).2 := by
  rw [run_snoc]
  exact Function.update_self _ _ _

theorem shared_snoc :
    (crew.run C (history ++ [(i, time)])).shared =
      (((crew.run C history).progs i).advance (C.tune time (crew.run C history).shared)).1 := by
  rw [run_snoc]
  rfl

theorem Wrote.snoc {move : ι × τ} (hwrote : crew.Wrote C history i) :
    crew.Wrote C (history ++ [move]) i := by
  obtain ⟨before, time, hearlier, hview⟩ := hwrote
  exact ⟨before, time, hearlier.trans (List.prefix_append _ _), hview⟩

theorem not_wrote_nil : ¬ crew.Wrote C [] i := by
  rintro ⟨before, time, hearlier, -⟩
  exact absurd (List.prefix_nil.mp hearlier) (by simp)

theorem not_wrote_snoc (hclean : ¬ crew.Wrote C history j)
    (hkeeps : i = j → C.view (crew.run C (history ++ [(i, time)])).shared =
      C.view (crew.run C history).shared) :
    ¬ crew.Wrote C (history ++ [(i, time)]) j := by
  rintro ⟨before, moment, hearlier, hchange⟩
  rcases List.prefix_concat_iff.mp hearlier with heq | hearlier
  · obtain ⟨rfl, hmove⟩ := List.append_inj' heq rfl
    obtain ⟨rfl, rfl⟩ := Prod.mk.inj (List.singleton_inj.mp hmove)
    exact hchange (hkeeps rfl)
  · exact hclean ⟨before, moment, hearlier, hchange⟩

theorem progs_eq_of_times_nil (hnil : times i history = []) :
    (crew.run C history).progs i = crew.progs i := by
  induction history using List.reverseRecOn with
  | nil => rfl
  | append_singleton history move ih =>
    obtain ⟨mover, time⟩ := move
    by_cases heq : i = mover
    · subst heq
      rw [times_snoc_self] at hnil
      exact absurd hnil (by simp)
    · rw [progs_snoc_of_ne heq]
      exact ih (times_snoc_of_ne heq ▸ hnil)

theorem undisturbed_of_times_nil (hnil : times i history = []) :
    crew.Undisturbed C history i := by
  unfold Undisturbed Replays
  rw [hnil]
  exact ⟨(progs_eq_of_times_nil hnil).symm, rfl⟩

theorem view_of_settled (hsettled : ((crew.run C history).progs i).Settled C) (time : τ) :
    C.view (crew.run C (history ++ [(i, time)])).shared = C.view (crew.run C history).shared := by
  obtain ⟨result, hresult⟩ := hsettled
  rw [shared_snoc, (hresult.advance _).2, C.view_tune]

theorem Considerate.init {move : ι × τ} (hconsiderate : crew.Considerate C (history ++ [move])) :
    crew.Considerate C history ∧ crew.MayMove C history move :=
  ⟨fun before other hearlier => hconsiderate before other
    (hearlier.trans (List.prefix_append _ _)), hconsiderate history move (List.prefix_refl _)⟩

theorem Considerate.nil : crew.Considerate C [] :=
  fun before move hearlier => absurd (List.prefix_nil.mp hearlier) (by simp)

theorem Considerate.snoc {move : ι × τ} (hconsiderate : crew.Considerate C history)
    (hmove : crew.MayMove C history move) : crew.Considerate C (history ++ [move]) := by
  intro before other hearlier
  rcases List.prefix_concat_iff.mp hearlier with heq | hearlier
  · obtain ⟨rfl, hother⟩ := List.append_inj' heq rfl
    obtain rfl := List.singleton_inj.mp hother
    exact hmove
  · exact hconsiderate before other hearlier

/-! ### Replaying -/

section

variable (hsteady : ∀ i, (crew.progs i).Steady C)

include hsteady

theorem Replays.congr (hreplays : crew.Replays C history s i) (hview : C.view s = C.view t) :
    crew.Replays C history t i := by
  obtain ⟨hprog, hstate⟩ := (hsteady i).solo_congr (times i history) hview
  exact ⟨hprog ▸ hreplays.1, hstate ▸ hreplays.2⟩

theorem Replays.own (hreplays : crew.Replays C history s i) (time : τ) :
    crew.Replays C (history ++ [(i, time)]) s i := by
  obtain ⟨hprog, hstate⟩ := hreplays
  have hcongr := ((hsteady i).solo (times i history) s).advance_congr time hstate
  unfold Replays
  rwa [times_snoc_self, Prog.solo_snoc, progs_snoc_self, shared_snoc, ← hprog]

omit hsteady in
theorem Replays.other (hreplays : crew.Replays C history s j) (hne : j ≠ i)
    (hview : C.view (crew.run C (history ++ [(i, time)])).shared =
      C.view (crew.run C history).shared) :
    crew.Replays C (history ++ [(i, time)]) s j := by
  unfold Replays
  rwa [times_snoc_of_ne hne, progs_snoc_of_ne hne, hview]

theorem Undisturbed.other (hfree : crew.Undisturbed C history j) (hne : j ≠ i)
    (hview : C.view (crew.run C (history ++ [(i, time)])).shared =
      C.view (crew.run C history).shared) :
    crew.Undisturbed C (history ++ [(i, time)]) j :=
  (Replays.other hfree hne hview).congr hsteady hview.symm

end

/-! ### The serial order -/

def serial (C : ClockView σ τ ν) (crew : Crew ι σ ε α) (history : List (ι × τ)) :
    List (ι × Except ε α) → σ
  | [] => crew.shared
  | last :: before =>
    (Prog.solo C (times last.1 history) (crew.progs last.1) (crew.serial C history before)).1

def Agrees (C : ClockView σ τ ν) (crew : Crew ι σ ε α) (history : List (ι × τ)) :
    List (ι × Except ε α) → Prop
  | [] => True
  | last :: before =>
    (Prog.solo C (times last.1 history) (crew.progs last.1)
      (crew.serial C history before)).2.SettledAs C last.2 ∧
    ((crew.run C history).progs last.1).SettledAs C last.2 ∧ crew.Agrees C history before

variable {order : List (ι × Except ε α)}

theorem serial_cons (last : ι × Except ε α) (before : List (ι × Except ε α)) :
    crew.serial C history (last :: before) =
      (Prog.solo C (times last.1 history) (crew.progs last.1)
        (crew.serial C history before)).1 :=
  rfl

theorem agrees_cons (last : ι × Except ε α) (before : List (ι × Except ε α)) :
    crew.Agrees C history (last :: before) ↔
      (Prog.solo C (times last.1 history) (crew.progs last.1)
        (crew.serial C history before)).2.SettledAs C last.2 ∧
      ((crew.run C history).progs last.1).SettledAs C last.2 ∧ crew.Agrees C history before :=
  Iff.rfl

theorem Agrees.settledAs (hagrees : crew.Agrees C history order) {result : Except ε α}
    (hmem : (i, result) ∈ order) : ((crew.run C history).progs i).SettledAs C result := by
  induction order with
  | nil => cases hmem
  | cons last before ih =>
    obtain ⟨-, hlast, hbefore⟩ := hagrees
    rcases List.mem_cons.mp hmem with rfl | hmem
    · exact hlast
    · exact ih hbefore hmem

theorem Agrees.snoc (hsteady : ∀ i, (crew.progs i).Steady C)
    (hagrees : crew.Agrees C history order) (i : ι) (time : τ) :
    crew.Agrees C (history ++ [(i, time)]) order ∧
      C.view (crew.serial C (history ++ [(i, time)]) order) =
        C.view (crew.serial C history order) := by
  induction order with
  | nil => exact ⟨trivial, rfl⟩
  | cons last before ih =>
    obtain ⟨halone, hnow, hbefore⟩ := hagrees
    obtain ⟨hagrees, hview⟩ := ih hbefore
    obtain ⟨hprog, hstate⟩ := (hsteady last.1).solo_congr (times last.1 history) hview
    rw [agrees_cons, serial_cons, serial_cons]
    by_cases heq : last.1 = i
    · subst heq
      rw [times_snoc_self, Prog.solo_snoc, progs_snoc_self, hprog]
      obtain ⟨hnext, hkeeps⟩ := halone.advance
        (C.tune time (Prog.solo C (times last.1 history) (crew.progs last.1)
          (crew.serial C (history ++ [(last.1, time)]) before)).1)
      refine ⟨⟨hnext, (hnow.advance _).1, hagrees⟩, ?_⟩
      rw [hkeeps, C.view_tune, hstate]
    · rw [times_snoc_of_ne heq, progs_snoc_of_ne heq, hprog]
      exact ⟨⟨halone, hnow, hagrees⟩, hstate⟩

theorem Agrees.serially (hsteady : ∀ i, (crew.progs i).Steady C)
    (hagrees : crew.Agrees C history order) :
    ∃ t, crew.Serially C order t ∧ C.view t = C.view (crew.serial C history order) := by
  induction order with
  | nil => exact ⟨crew.shared, rfl, rfl⟩
  | cons last before ih =>
    obtain ⟨halone, -, hbefore⟩ := hagrees
    obtain ⟨s, hserially, hview⟩ := ih hbefore
    obtain ⟨hprog, hstate⟩ := (hsteady last.1).solo_congr (times last.1 history) hview
    obtain ⟨t, hends, hend⟩ := Prog.ends_of_solo (times last.1 history) (hprog ▸ halone)
    exact ⟨t, ⟨s, hserially, hends⟩, hend.trans hstate⟩

/-- The settled programs stand in an order that agrees with the interleaving. At most one of the
others is writing, and run alone after the order it is where it is. -/
structure Ordered (C : ClockView σ τ ν) (crew : Crew ι σ ε α) (history : List (ι × τ))
    (order : List (ι × Except ε α)) (writer : Option ι) : Prop where
  nodup : (order.map Prod.fst).Nodup
  agrees : crew.Agrees C history order
  waiting : ∀ j, j ∉ order.map Prod.fst → ((crew.run C history).progs j).Settled C →
    times j history = []
  undisturbed : ∀ j, j ∉ order.map Prod.fst → writer ≠ some j → crew.Undisturbed C history j
  idle : writer = none → C.view (crew.serial C history order) = C.view (crew.run C history).shared
  writing : ∀ j, writer = some j → j ∉ order.map Prod.fst ∧ crew.Wrote C history j ∧
    ¬ ((crew.run C history).progs j).Settled C ∧
    crew.Replays C history (crew.serial C history order) j

section

variable {writer : Option ι} (hsteady : ∀ i, (crew.progs i).Steady C)
  (hordered : crew.Ordered C history order writer)

include hordered

theorem Ordered.waiting_snoc {j : ι} (hout : j ∉ order.map Prod.fst) (hne : j ≠ i) {time : τ}
    (hsettled : ((crew.run C (history ++ [(i, time)])).progs j).Settled C) :
    times j (history ++ [(i, time)]) = [] := by
  rw [progs_snoc_of_ne hne] at hsettled
  rw [times_snoc_of_ne hne]
  exact hordered.waiting j hout hsettled

theorem Ordered.undisturbed_snoc (hopen : ¬ ((crew.run C history).progs i).Settled C)
    (hmove : crew.MayMove C history (i, time)) {j : ι} (hrest : j ∉ order.map Prod.fst)
    (hne : j ≠ i) : crew.Undisturbed C (history ++ [(i, time)]) j := by
  rcases hmove.resolve_left hopen j hne with hdone | ⟨-, hfree⟩
  · refine undisturbed_of_times_nil ?_
    rw [times_snoc_of_ne hne]
    exact hordered.waiting j hrest hdone
  · exact hfree

include hsteady

theorem Ordered.member (hmem : i ∈ order.map Prod.fst) (time : τ) :
    crew.Ordered C (history ++ [(i, time)]) order writer := by
  obtain ⟨⟨_, result⟩, hpair, rfl⟩ := List.mem_map.mp hmem
  have hview := view_of_settled ⟨result, hordered.agrees.settledAs hpair⟩ time
  obtain ⟨hagrees, hserial⟩ := hordered.agrees.snoc hsteady _ time
  refine ⟨hordered.nodup, hagrees, ?_, ?_, ?_, ?_⟩
  · intro j hout hsettled
    exact hordered.waiting_snoc hout (ne_of_mem_of_not_mem hmem hout).symm hsettled
  · intro j hout hother
    exact (hordered.undisturbed j hout hother).other hsteady
      (ne_of_mem_of_not_mem hmem hout).symm hview
  · intro hnone
    rw [hserial, hview]
    exact hordered.idle hnone
  · intro j hwriter
    obtain ⟨hout, hwrote, hopen, hreplays⟩ := hordered.writing j hwriter
    have hne := ne_of_mem_of_not_mem hmem hout
    refine ⟨hout, hwrote.snoc, ?_, ?_⟩
    · rwa [progs_snoc_of_ne hne.symm]
    · exact (hreplays.other hne.symm hview).congr hsteady hserial.symm

theorem Ordered.settled {result : Except ε α} (hout : i ∉ order.map Prod.fst)
    (hsettled : ((crew.run C history).progs i).SettledAs C result) (time : τ) :
    crew.Ordered C (history ++ [(i, time)]) ((i, result) :: order) writer := by
  have hview := view_of_settled ⟨result, hsettled⟩ time
  have hnil := hordered.waiting i hout ⟨result, hsettled⟩
  obtain ⟨hagrees, hserial⟩ := hordered.agrees.snoc hsteady i time
  have hfirst : (crew.progs i).SettledAs C result := progs_eq_of_times_nil (C := C) hnil ▸ hsettled
  obtain ⟨hnext, hkeeps⟩ := hfirst.advance
    (C.tune time (crew.serial C (history ++ [(i, time)]) order))
  have hone : times i (history ++ [(i, time)]) = [time] := by
    rw [times_snoc_self, hnil, List.nil_append]
  have hpushed : C.view (crew.serial C (history ++ [(i, time)]) ((i, result) :: order)) =
      C.view (crew.serial C history order) := by
    rw [serial_cons, hone]
    exact hkeeps.trans ((C.view_tune _ _).trans hserial)
  refine ⟨List.nodup_cons.mpr ⟨hout, hordered.nodup⟩, ?_, ?_, ?_, ?_, ?_⟩
  · rw [agrees_cons, hone, progs_snoc_self]
    exact ⟨hnext, (hsettled.advance _).1, hagrees⟩
  · intro j hothers hdone
    obtain ⟨hne, hrest⟩ := not_or.mp (mt List.mem_cons.mpr hothers)
    exact hordered.waiting_snoc hrest hne hdone
  · intro j hothers hother
    obtain ⟨hne, hrest⟩ := not_or.mp (mt List.mem_cons.mpr hothers)
    exact (hordered.undisturbed j hrest hother).other hsteady hne hview
  · intro hnone
    rw [hpushed, hview]
    exact hordered.idle hnone
  · intro j hwriter
    obtain ⟨hrest, hwrote, hopen, hreplays⟩ := hordered.writing j hwriter
    have hne : j ≠ i := by
      rintro rfl
      exact hopen ⟨result, hsettled⟩
    refine ⟨List.not_mem_cons_of_ne_of_not_mem hne hrest, hwrote.snoc, ?_, ?_⟩
    · rwa [progs_snoc_of_ne hne]
    · exact (hreplays.other hne hview).congr hsteady hpushed.symm

theorem Ordered.replays (hopen : ¬ ((crew.run C history).progs i).Settled C)
    (hmove : crew.MayMove C history (i, time)) :
    (writer = none ∨ writer = some i) ∧
      (i ∉ order.map Prod.fst → crew.Replays C history (crew.serial C history order) i) := by
  have hothers := hmove.resolve_left hopen
  cases writer with
  | none =>
    refine ⟨Or.inl rfl, fun hout => ?_⟩
    exact Replays.congr hsteady (hordered.undisturbed i hout (by simp)) (hordered.idle rfl).symm
  | some j =>
    obtain ⟨-, hwrote, hunsettled, hreplays⟩ := hordered.writing j rfl
    by_cases heq : j = i
    · subst heq
      exact ⟨Or.inr rfl, fun _ => hreplays⟩
    · rcases hothers j heq with hsettled | ⟨hclean, -⟩
      · exact absurd hsettled hunsettled
      · exact absurd hwrote hclean

theorem Ordered.joins {result : Except ε α} (hout : i ∉ order.map Prod.fst)
    (hown : crew.Replays C (history ++ [(i, time)])
      (crew.serial C (history ++ [(i, time)]) order) i)
    (hfree : ∀ j, j ∉ order.map Prod.fst → j ≠ i → crew.Undisturbed C (history ++ [(i, time)]) j)
    (hresult : ((crew.run C (history ++ [(i, time)])).progs i).SettledAs C result) :
    crew.Ordered C (history ++ [(i, time)]) ((i, result) :: order) none := by
  obtain ⟨hagrees, -⟩ := hordered.agrees.snoc hsteady i time
  refine ⟨List.nodup_cons.mpr ⟨hout, hordered.nodup⟩, ?_, ?_, ?_, fun _ => hown.2, by simp⟩
  · rw [agrees_cons, hown.1]
    exact ⟨hresult, hresult, hagrees⟩
  · intro j hothers
    obtain ⟨hne, hrest⟩ := not_or.mp (mt List.mem_cons.mpr hothers)
    exact hordered.waiting_snoc hrest hne
  · intro j hothers _
    obtain ⟨hne, hrest⟩ := not_or.mp (mt List.mem_cons.mpr hothers)
    exact hfree j hrest hne

theorem Ordered.unsettled (hopen : ¬ ((crew.run C history).progs i).Settled C)
    (hmove : crew.MayMove C history (i, time)) :
    ∃ order writer, crew.Ordered C (history ++ [(i, time)]) order writer := by
  have hout : i ∉ order.map Prod.fst := by
    intro hmem
    obtain ⟨⟨_, result⟩, hpair, rfl⟩ := List.mem_map.mp hmem
    exact hopen ⟨result, hordered.agrees.settledAs hpair⟩
  obtain ⟨hwriter, hreplays⟩ := hordered.replays hsteady hopen hmove
  obtain ⟨hagrees, hserial⟩ := hordered.agrees.snoc hsteady i time
  have hown : crew.Replays C (history ++ [(i, time)])
      (crew.serial C (history ++ [(i, time)]) order) i :=
    ((hreplays hout).own hsteady time).congr hsteady hserial.symm
  have hfree : ∀ j, j ∉ order.map Prod.fst → j ≠ i →
      crew.Undisturbed C (history ++ [(i, time)]) j :=
    fun j hrest hne => hordered.undisturbed_snoc hopen hmove hrest hne
  by_cases hdone : ((crew.run C (history ++ [(i, time)])).progs i).Settled C
  · obtain ⟨result, hresult⟩ := hdone
    exact ⟨_, none, hordered.joins hsteady hout hown hfree hresult⟩
  have hstill : ∀ j, j ∉ order.map Prod.fst →
      ((crew.run C (history ++ [(i, time)])).progs j).Settled C →
      times j (history ++ [(i, time)]) = [] := by
    intro j hrest hsettled
    have hne : j ≠ i := by
      rintro rfl
      exact hdone hsettled
    exact hordered.waiting_snoc hrest hne hsettled
  by_cases hwrote : crew.Wrote C (history ++ [(i, time)]) i
  · refine ⟨order, some i, hordered.nodup, hagrees, hstill, ?_, by simp, ?_⟩
    · intro j hrest hother
      exact hfree j hrest fun heq => hother (heq ▸ rfl)
    · rintro j ⟨⟩
      exact ⟨hout, hwrote, hdone, hown⟩
  · -- It has only read so far, so nobody is writing and the view is what it was.
    have hview : C.view (crew.run C (history ++ [(i, time)])).shared =
        C.view (crew.run C history).shared := by
      by_contra hchange
      exact hwrote ⟨history, time, List.prefix_refl _, hchange⟩
    have hnone : writer = none := by
      refine hwriter.resolve_right fun hsome => ?_
      exact hwrote (hordered.writing i hsome).2.1.snoc
    have hidle : C.view (crew.serial C (history ++ [(i, time)]) order) =
        C.view (crew.run C (history ++ [(i, time)])).shared := by
      rw [hserial, hview]
      exact hordered.idle hnone
    refine ⟨order, none, hordered.nodup, hagrees, hstill, ?_, fun _ => hidle, by simp⟩
    intro j hrest _
    by_cases heq : j = i
    · subst heq
      exact hown.congr hsteady hidle
    · exact hfree j hrest heq

end

theorem exists_ordered (hsteady : ∀ i, (crew.progs i).Steady C)
    (hconsiderate : crew.Considerate C history) :
    ∃ order writer, crew.Ordered C history order writer := by
  induction history using List.reverseRecOn with
  | nil =>
    refine ⟨[], none, List.nodup_nil, trivial, fun _ _ _ => rfl, ?_, fun _ => rfl, by simp⟩
    exact fun j _ _ => undisturbed_of_times_nil rfl
  | append_singleton history move ih =>
    obtain ⟨hbefore, hmove⟩ := hconsiderate.init
    obtain ⟨order, writer, hordered⟩ := ih hbefore
    obtain ⟨i, time⟩ := move
    by_cases hmem : i ∈ order.map Prod.fst
    · exact ⟨order, writer, hordered.member hsteady hmem time⟩
    by_cases hsettled : ((crew.run C history).progs i).Settled C
    · obtain ⟨result, hresult⟩ := hsettled
      exact ⟨(i, result) :: order, writer, hordered.settled hsteady hmem hresult time⟩
    · exact hordered.unsettled hsteady hsettled hmove

/-- **A considerate interleaving amounts to a serial order.** What has ended, ended as it does in
the order. -/
theorem serializable (hsteady : ∀ i, (crew.progs i).Steady C)
    (hconsiderate : crew.Considerate C history) :
    ∃ order t, (order.map Prod.fst).Nodup ∧ crew.Serially C order t ∧
      (∀ i result, times i history ≠ [] →
        ((crew.run C history).progs i).outcome = some result → (i, result) ∈ order) ∧
      ((∀ i, (((crew.run C history).progs i).outcome).isSome) →
        C.view t = C.view (crew.run C history).shared) := by
  obtain ⟨order, writer, hordered⟩ := exists_ordered hsteady hconsiderate
  obtain ⟨t, hserially, hview⟩ := hordered.agrees.serially hsteady
  refine ⟨order, t, hordered.nodup, hserially, ?_, ?_⟩
  · intro i result hbegun houtcome
    have hmem : i ∈ order.map Prod.fst := by
      by_contra hout
      exact hbegun (hordered.waiting i hout ⟨result, Prog.settledAs_of_outcome houtcome⟩)
    obtain ⟨⟨_, found⟩, hpair, rfl⟩ := List.mem_map.mp hmem
    rwa [← (hordered.agrees.settledAs hpair).of_outcome houtcome]
  · intro hended
    rw [hview]
    refine hordered.idle ?_
    by_contra hsome
    obtain ⟨i, rfl⟩ := Option.ne_none_iff_exists'.mp hsome
    obtain ⟨result, hresult⟩ := Option.isSome_iff_exists.mp (hended i)
    exact (hordered.writing i rfl).2.2.1 ⟨result, Prog.settledAs_of_outcome hresult⟩

end

end Crew
