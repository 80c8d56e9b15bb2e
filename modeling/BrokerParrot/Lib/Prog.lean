import Mathlib.Data.List.Forall2
import Mathlib.Logic.Relation

/-!
# Programs of atomic statements

A program reads and writes a shared state one statement at a time, and between two of its statements
others may run. `Safe` is the rely-guarantee reading of such a program: whatever moves `R` the
others make in between, each of its own statements is a move in `G`, and what it returns satisfies a
postcondition that those moves cannot break.
-/

theorem Except.bind_eq_ok_iff {ε α β : Type} {result : Except ε α} {next : α → Except ε β} {b : β} :
    result >>= next = .ok b ↔ ∃ a, result = .ok a ∧ next a = .ok b := by
  cases result with
  | error | ok => simp [bind, Except.bind]

theorem List.mapM_eq_ok_iff {ε α β : Type} {f : α → Except ε β} {items : List α} {values : List β} :
    items.mapM f = .ok values ↔
      List.Forall₂ (fun item value => f item = .ok value) items values := by
  induction items generalizing values with
  | nil => simp [pure, Except.pure, eq_comm]
  | cons item rest ih =>
    rw [List.mapM_cons, Except.bind_eq_ok_iff, List.forall₂_cons_left_iff]
    constructor
    · rintro ⟨value, hvalue, hrest⟩
      obtain ⟨others, hothers, hlist⟩ := Except.bind_eq_ok_iff.mp hrest
      cases hlist
      exact ⟨value, others, hvalue, ih.mp hothers, rfl⟩
    · rintro ⟨value, others, hvalue, hothers, rfl⟩
      exact ⟨value, hvalue, Except.bind_eq_ok_iff.mpr ⟨others, ih.mpr hothers, rfl⟩⟩

/-- A program over a shared state: statements that move it at once, and what follows each. -/
inductive Prog (σ ε α : Type) where
  | ret (value : α)
  | raise (error : ε)
  | stmt (set : σ → σ) (next : σ → Prog σ ε α)
  /-- A loop that was given no more rounds: it never takes another step. -/
  | hang

namespace Prog

variable {σ ε α β : Type}

protected def bind : Prog σ ε α → (α → Prog σ ε β) → Prog σ ε β
  | ret value, next => next value
  | raise error, _ => raise error
  | stmt set rest, next => stmt set fun state => (rest state).bind next
  | hang, _ => hang

instance : Monad (Prog σ ε) where
  pure := ret
  bind := Prog.bind

def read (view : σ → α) : Prog σ ε α := stmt id fun state => ret (view state)

def write (set : σ → σ) : Prog σ ε Unit := stmt set fun _ => ret ()

def exec (run : σ → σ × α) : Prog σ ε α :=
  stmt (fun state => (run state).1) fun state => ret (run state).2

def attempted (run : σ → Except ε σ) (state : σ) : σ :=
  match run state with
  | .ok after => after
  | .error _ => state

/-- A statement that may raise, and then leaves the state as it was. -/
def attempt (run : σ → Except ε σ) : Prog σ ε Unit :=
  stmt (attempted run) fun state =>
    match run state with
    | .ok _ => ret ()
    | .error error => raise error

def ofExcept : Except ε α → Prog σ ε α
  | .ok value => ret value
  | .error error => raise error

def forEach (items : List α) (body : α → Prog σ ε Unit) : Prog σ ε Unit :=
  match items with
  | [] => ret ()
  | item :: rest => (body item).bind fun _ => forEach rest body

/-- The body of a handler: the program's exception becomes a value. -/
def tried {δ : Type} : Prog σ ε α → Prog σ δ (Except ε α)
  | ret value => ret (.ok value)
  | raise error => ret (.error error)
  | stmt set next => stmt set fun state => (next state).tried
  | hang => hang

structure Lens (τ σ : Type) where
  get : τ → σ
  put : σ → τ → τ
  get_put : ∀ part whole, get (put part whole) = part
  put_get : ∀ whole, put (get whole) whole = whole
  put_put : ∀ part other whole, put part (put other whole) = put part whole

/-- The program on one part of a larger state. -/
def zoom {τ : Type} (lens : Lens τ σ) : Prog σ ε α → Prog τ ε α
  | ret value => ret value
  | raise error => raise error
  | stmt set next =>
    stmt (fun whole => lens.put (set (lens.get whole)) whole) fun whole =>
      (next (lens.get whole)).zoom lens
  | hang => hang

/-- The next statement: the state after it and the rest of the program. -/
def advance : Prog σ ε α → σ → σ × Prog σ ε α
  | stmt set next, state => (set state, next state)
  | prog, state => (state, prog)

def ended : Prog σ ε α → Bool
  | ret _ => true
  | raise _ => true
  | _ => false

def returned : Prog σ ε α → Bool
  | ret _ => true
  | _ => false

/-- The state a program leaves when nobody else moves, also when it raises or hangs. -/
def left : Prog σ ε α → σ → σ
  | stmt set next, state => left (next state) (set state)
  | _, state => state

/-- The shared state when the program is stopped after that many statements. -/
def killed : ℕ → Prog σ ε α → σ → σ
  | 0, _, state => state
  | count + 1, prog, state => killed count (prog.advance state).2 (prog.advance state).1

/-- The program when an exception strikes after that many statements, or at its end if that comes
first. -/
def interrupted (error : ε) : ℕ → Prog σ ε α → Prog σ ε α
  | count + 1, stmt set next => stmt set fun state => interrupted error count (next state)
  | _, raise raised => raise raised
  | _, _ => raise error

variable {prog : Prog σ ε α} {next : Unit → Prog σ ε α}

theorem eq_ret_of_returned (hreturned : prog.returned = true) : ∃ value, prog = ret value := by
  cases prog with
  | ret value => exact ⟨value, rfl⟩
  | _ => cases hreturned

theorem bind_assoc {γ : Type} (prog : Prog σ ε α) (next : α → Prog σ ε β) (last : β → Prog σ ε γ) :
    prog >>= next >>= last = prog >>= fun value => next value >>= last := by
  induction prog with
  | ret | raise | hang => rfl
  | stmt set rest ih =>
    change stmt set (fun state => rest state >>= next >>= last) = stmt set _
    congr 1
    funext state
    exact ih state

theorem left_read_bind (view : σ → α) (next : α → Prog σ ε β) (s : σ) :
    (read view >>= next).left s = (next (view s)).left s :=
  rfl

theorem left_exec_bind (run : σ → σ × α) (next : α → Prog σ ε β) (s : σ) :
    (exec run >>= next).left s = (next (run s).2).left (run s).1 :=
  rfl

theorem left_bind_pure (prog : Prog σ ε α) (f : α → β) (s : σ) :
    (prog >>= fun value => (pure (f value) : Prog σ ε β)).left s = prog.left s := by
  induction prog generalizing s with
  | stmt set next ih => exact ih s (set s)
  | _ => rfl

theorem left_advance (prog : Prog σ ε α) (s : σ) :
    (prog.advance s).2.left (prog.advance s).1 = prog.left s := by
  cases prog <;> rfl

theorem advance_bind (next : α → Prog σ ε β) (s : σ) (hrun : prog.ended = false) :
    (prog >>= next).advance s = ((prog.advance s).1, (prog.advance s).2 >>= next) := by
  cases prog with
  | stmt | hang => rfl
  | _ => cases hrun

theorem advance_tried {δ : Type} (prog : Prog σ ε α) (s : σ) :
    (prog.tried : Prog σ δ (Except ε α)).advance s =
      ((prog.advance s).1, (prog.advance s).2.tried) := by
  cases prog <;> rfl

theorem advance_zoom {τ : Type} (lens : Lens τ σ) (prog : Prog σ ε α) (whole : τ) :
    (prog.zoom lens).advance whole =
      (lens.put (prog.advance (lens.get whole)).1 whole,
        (prog.advance (lens.get whole)).2.zoom lens) := by
  cases prog with
  | stmt => rfl
  | _ => simp only [zoom, advance, lens.put_get]

theorem left_zoom {τ : Type} (lens : Lens τ σ) (prog : Prog σ ε α) (whole : τ) :
    (prog.zoom lens).left whole = lens.put (prog.left (lens.get whole)) whole := by
  induction prog generalizing whole with
  | stmt set next ih =>
    change ((next (lens.get whole)).zoom lens).left _ = _
    rw [ih, lens.get_put, lens.put_put]
    rfl
  | _ => exact (lens.put_get whole).symm

/-! ### Stopped programs -/

theorem killed_write_bind {set : σ → σ} (count : ℕ) (s : σ) :
    killed (count + 1) (write set >>= next) s = killed count (next ()) (set s) :=
  rfl

theorem killed_of_still {s : σ} (hstill : prog.advance s = (s, prog))
    (count : ℕ) : prog.killed count s = s := by
  induction count with
  | zero => rfl
  | succ count ih =>
    change killed count (prog.advance s).2 (prog.advance s).1 = s
    rw [hstill]
    exact ih

theorem killed_ret (count : ℕ) (value : α) (s : σ) : killed count (ret value : Prog σ ε α) s = s :=
  killed_of_still rfl count

theorem killed_forEach_write {set : β → σ → σ} (items : List β) (count : ℕ) (s : σ) :
    killed count (forEach items (fun item => write (set item)) >>= next) s =
      if count ≤ items.length then
        (items.take count).foldl (fun state item => set item state) s
      else
        killed (count - items.length) (next ())
          (items.foldl (fun state item => set item state) s) := by
  induction items generalizing count s with
  | nil =>
    cases count with
    | zero | succ => rfl
  | cons item rest ih =>
    cases count with
    | zero => rfl
    | succ count =>
      change killed count (forEach rest (fun item => write (set item)) >>= next)
        (set item s) = _
      rw [ih]
      simp [List.take_succ_cons]

/-! ### What the statements do

Two properties of the text of a program, whatever the states it is run in: every statement is a move
of some kind, and a statement that makes a move of some kind is the last one. -/

/-- Every statement is a move of `W`, from whatever state it starts. -/
def Moves (W : σ → σ → Prop) : Prog σ ε α → Prop
  | stmt set next => ∀ s, W s (set s) ∧ Moves W (next s)
  | _ => True

/-- A statement that is a move of `W` is the last one. -/
def LastMove (W : σ → σ → Prop) : Prog σ ε α → Prop
  | stmt set next => ∀ s, (W s (set s) → (next s).ended = true) ∧ LastMove W (next s)
  | _ => True

/-- Every statement is a move of `W`, or the last one and a move of `L`. -/
def MovesTo (W L : σ → σ → Prop) : Prog σ ε α → Prop
  | stmt set next => ∀ s,
    (W s (set s) ∨ L s (set s) ∧ (next s).ended = true) ∧ MovesTo W L (next s)
  | _ => True

section

variable {W L : σ → σ → Prop} {next : α → Prog σ ε β}

theorem Moves.bind (hprog : prog.Moves W) (hnext : ∀ value, (next value).Moves W) :
    (prog >>= next).Moves W := by
  induction prog with
  | ret value => exact hnext value
  | raise | hang => trivial
  | stmt set rest ih => exact fun s => ⟨(hprog s).1, ih s (hprog s).2⟩

theorem Moves.mono {V : σ → σ → Prop} (hprog : prog.Moves W)
    (hle : ∀ s t, W s t → V s t) : prog.Moves V := by
  induction prog with
  | stmt set next ih => exact fun s => ⟨hle _ _ (hprog s).1, ih s (hprog s).2⟩
  | _ => trivial

theorem Moves.left (hrefl : ∀ s, W s s) (htrans : ∀ s t u, W s t → W t u → W s u)
    (hprog : prog.Moves W) (s : σ) : W s (prog.left s) := by
  induction prog generalizing s with
  | stmt set next ih => exact htrans _ _ _ (hprog s).1 (ih s (hprog s).2 (set s))
  | _ => exact hrefl s

theorem Moves.killed (hrefl : ∀ s, W s s) (htrans : ∀ s t u, W s t → W t u → W s u)
    (hprog : prog.Moves W) (count : ℕ) (s : σ) : W s (prog.killed count s) := by
  induction count generalizing prog s with
  | zero => exact hrefl s
  | succ count ih =>
    cases prog with
    | stmt set => exact htrans _ _ _ (hprog s).1 (ih (hprog s).2 (set s))
    | _ => exact ih hprog s

theorem Moves.advance (hprog : prog.Moves W) (s : σ) : (prog.advance s).2.Moves W := by
  cases prog with
  | stmt => exact (hprog s).2
  | _ => exact hprog

theorem Moves.read (hrefl : ∀ s, W s s) (view : σ → α) : (Prog.read view : Prog σ ε α).Moves W :=
  fun s => ⟨hrefl s, trivial⟩

theorem Moves.write {set : σ → σ} (hset : ∀ s, W s (set s)) :
    (Prog.write set : Prog σ ε Unit).Moves W :=
  fun s => ⟨hset s, trivial⟩

theorem Moves.exec {run : σ → σ × α} (hrun : ∀ s, W s (run s).1) :
    (Prog.exec run : Prog σ ε α).Moves W :=
  fun s => ⟨hrun s, trivial⟩

theorem Moves.attempt (hrefl : ∀ s, W s s) {run : σ → Except ε σ}
    (hrun : ∀ s t, run s = .ok t → W s t) : (Prog.attempt run).Moves W := by
  intro s
  cases hresult : run s with
  | ok after =>
    exact ⟨by simpa [attempted, hresult] using hrun s after hresult, by simp [hresult, Moves]⟩
  | error => exact ⟨by simpa [attempted, hresult] using hrefl s, by simp [hresult, Moves]⟩

theorem Moves.ofExcept (result : Except ε α) : (Prog.ofExcept result : Prog σ ε α).Moves W := by
  cases result <;> trivial

theorem Moves.forEach {items : List β} {body : β → Prog σ ε Unit}
    (hbody : ∀ item, (body item).Moves W) : (Prog.forEach items body).Moves W := by
  induction items with
  | nil => trivial
  | cons item rest ih => exact (hbody item).bind fun _ => ih

theorem Moves.tried {δ : Type} (hprog : prog.Moves W) :
    (prog.tried : Prog σ δ (Except ε α)).Moves W := by
  induction prog with
  | stmt set next ih => exact fun s => ⟨(hprog s).1, ih s (hprog s).2⟩
  | _ => trivial

theorem Moves.zoom {τ : Type} {lens : Lens τ σ} {V : τ → τ → Prop} (hprog : prog.Moves W)
    (hle : ∀ whole part, W (lens.get whole) part → V whole (lens.put part whole)) :
    (prog.zoom lens).Moves V := by
  induction prog with
  | stmt set next ih =>
    exact fun whole => ⟨hle _ _ (hprog (lens.get whole)).1, ih _ (hprog (lens.get whole)).2⟩
  | _ => trivial

theorem MovesTo.bind (hprog : prog.Moves W) (hnext : ∀ value, (next value).MovesTo W L) :
    (prog >>= next).MovesTo W L := by
  induction prog with
  | ret value => exact hnext value
  | raise | hang => trivial
  | stmt set rest ih => exact fun s => ⟨Or.inl (hprog s).1, ih s (hprog s).2⟩

theorem MovesTo.of_moves (hprog : prog.Moves W) : prog.MovesTo W L := by
  induction prog with
  | stmt set next ih => exact fun s => ⟨Or.inl (hprog s).1, ih s (hprog s).2⟩
  | _ => trivial

theorem MovesTo.moves {V : σ → σ → Prop} (hprog : prog.MovesTo W L) (hle : ∀ s t, W s t → V s t)
    (hlast : ∀ s t, L s t → V s t) : prog.Moves V := by
  induction prog with
  | stmt set next ih =>
    refine fun s => ⟨?_, ih s (hprog s).2⟩
    exact (hprog s).1.elim (hle _ _) fun hmove => hlast _ _ hmove.1
  | _ => trivial

theorem MovesTo.lastMove {V : σ → σ → Prop} (hprog : prog.MovesTo W L)
    (hquiet : ∀ s t, W s t → ¬ V s t) : prog.LastMove V := by
  induction prog with
  | stmt set next ih =>
    refine fun s => ⟨fun hmove => ?_, ih s (hprog s).2⟩
    exact ((hprog s).1.resolve_left fun hown => hquiet _ _ hown hmove).2
  | _ => trivial

theorem LastMove.advance (hprog : prog.LastMove W) (s : σ) : (prog.advance s).2.LastMove W := by
  cases prog with
  | stmt => exact (hprog s).2
  | _ => exact hprog

theorem LastMove.ended_of_advance (hirrefl : ∀ s, ¬ W s s)
    (hprog : prog.LastMove W) {s : σ} (hmove : W s (prog.advance s).1) :
    (prog.advance s).2.ended = true := by
  cases prog with
  | stmt => exact (hprog s).1 hmove
  | _ => exact absurd hmove (hirrefl s)

theorem MovesTo.map (hprog : prog.MovesTo W L) (f : α → β) :
    (prog >>= fun value => (pure (f value) : Prog σ ε β)).MovesTo W L := by
  induction prog with
  | stmt set next ih =>
    refine fun s => ⟨(hprog s).1.imp_right fun ⟨hlast, hended⟩ => ⟨hlast, ?_⟩, ih s (hprog s).2⟩
    change ((next s).bind _).ended = true
    cases hrest : next s with
    | ret | raise => rfl
    | stmt | hang => simp [hrest, ended] at hended
  | _ => trivial

end

/-! ### Rely and guarantee -/

section

variable {R G : σ → σ → Prop} {post : Except ε α → σ → Prop} {s t : σ}

/-- The others, who move by `R`, keep the fact. -/
def Stable (R : σ → σ → Prop) (fact : σ → Prop) : Prop := ∀ s t, R s t → fact s → fact t

theorem Stable.steps {fact : σ → Prop} (hstable : Stable R fact)
    (hsteps : Relation.ReflTransGen R s t) (hfact : fact s) : fact t := by
  induction hsteps with
  | refl => exact hfact
  | tail _ hlast ih => exact hstable _ _ hlast ih

def Nobody (_ _ : σ) : Prop := False

theorem eq_of_nobody (hsteps : Relation.ReflTransGen Nobody s t) : t = s := by
  induction hsteps with
  | refl => rfl
  | tail _ hlast => exact hlast.elim

/-- While others move by `R`, every own statement is a move of `G` and every end meets `post`. -/
def Safe (R G : σ → σ → Prop) (post : Except ε α → σ → Prop) : Prog σ ε α → σ → Prop
  | ret value, s => ∀ t, Relation.ReflTransGen R s t → post (.ok value) t
  | raise error, s => ∀ t, Relation.ReflTransGen R s t → post (.error error) t
  | stmt set next, s =>
    ∀ t, Relation.ReflTransGen R s t → G t (set t) ∧ Safe R G post (next t) (set t)
  | hang, _ => True

/-- A run among others who move by `R`, to its end with a result. -/
inductive Ends (R : σ → σ → Prop) : Prog σ ε α → σ → Except ε α → σ → Prop
  | ret {value : α} {s t : σ} (hsteps : Relation.ReflTransGen R s t) :
      Ends R (ret value) s (.ok value) t
  | raise {error : ε} {s t : σ} (hsteps : Relation.ReflTransGen R s t) :
      Ends R (raise error) s (.error error) t
  | stmt {set : σ → σ} {next : σ → Prog σ ε α} {s t u : σ} {result : Except ε α}
      (hsteps : Relation.ReflTransGen R s t) (hrest : Ends R (next t) (set t) result u) :
      Ends R (stmt set next) s result u

/-- A run up to one of its own statements, which moves the state from `t` to `u`. -/
inductive Acts (R : σ → σ → Prop) : Prog σ ε α → σ → σ → σ → Prop
  | now {set : σ → σ} {next : σ → Prog σ ε α} {s t : σ} (hsteps : Relation.ReflTransGen R s t) :
      Acts R (stmt set next) s t (set t)
  | later {set : σ → σ} {next : σ → Prog σ ε α} {s t u v : σ}
      (hsteps : Relation.ReflTransGen R s t) (hrest : Acts R (next t) (set t) u v) :
      Acts R (stmt set next) s u v

/-- The result and the last state when nobody else moves; none if the program hangs. -/
def alone : Prog σ ε α → σ → Option (Except ε α × σ)
  | ret value, state => some (.ok value, state)
  | raise error, state => some (.error error, state)
  | stmt set next, state => alone (next state) (set state)
  | hang, _ => none

variable {result : Except ε α} {next : α → Prog σ ε β}

theorem ends_of_alone (halone : prog.alone s = some (result, t)) : Ends R prog s result t := by
  induction prog generalizing s with
  | ret value =>
    cases halone
    exact .ret Relation.ReflTransGen.refl
  | raise error =>
    cases halone
    exact .raise Relation.ReflTransGen.refl
  | stmt set next ih => exact .stmt Relation.ReflTransGen.refl (ih s halone)
  | hang => cases halone

theorem alone_read_bind (view : σ → α) (next : α → Prog σ ε β) (s : σ) :
    (read view >>= next).alone s = (next (view s)).alone s :=
  rfl

theorem alone_attempt (run : σ → Except ε σ) (s : σ) :
    (attempt run).alone s = some ((run s).map fun _ => (), attempted run s) := by
  cases hresult : run s <;> simp [attempt, alone, attempted, hresult, Except.map]

theorem ok_of_alone_attempt {run : σ → Except ε σ}
    (halone : (attempt run).alone s = some (.ok (), t)) : run s = .ok t := by
  rw [alone_attempt, attempted] at halone
  cases hresult : run s with
  | error => simp [hresult, Except.map] at halone
  | ok after =>
    rw [hresult] at halone
    have hsame : after = t := (Prod.mk.inj (Option.some.inj halone)).2
    rw [hsame]

theorem alone_bind_of_ok {value : α} (halone : prog.alone s = some (.ok value, t)) :
    (prog >>= next).alone s = (next value).alone t := by
  induction prog generalizing s with
  | ret found =>
    cases halone
    rfl
  | stmt set rest ih => exact ih s halone
  | _ => cases halone

theorem alone_bind_of_error {error : ε} (halone : prog.alone s = some (.error error, t)) :
    (prog >>= next).alone s = some (.error error, t) := by
  induction prog generalizing s with
  | raise raised =>
    cases halone
    rfl
  | stmt set rest ih => exact ih s halone
  | _ => cases halone

theorem alone_tried {δ : Type} (halone : prog.alone s = some (result, t)) :
    (prog.tried : Prog σ δ (Except ε α)).alone s = some (.ok result, t) := by
  induction prog generalizing s with
  | ret value =>
    cases halone
    rfl
  | raise error =>
    cases halone
    rfl
  | stmt set next ih => exact ih s halone
  | hang => cases halone

theorem alone_zoom {τ : Type} (lens : Lens τ σ)
    {whole : τ} (halone : prog.alone (lens.get whole) = some (result, t)) :
    (prog.zoom lens).alone whole = some (result, lens.put t whole) := by
  induction prog generalizing whole with
  | ret value =>
    obtain ⟨rfl, rfl⟩ : Except.ok value = result ∧ lens.get whole = t := by
      simpa [alone] using halone
    rw [lens.put_get]
    rfl
  | raise error =>
    obtain ⟨rfl, rfl⟩ : Except.error error = result ∧ lens.get whole = t := by
      simpa [alone] using halone
    rw [lens.put_get]
    rfl
  | stmt set next ih =>
    have hstep : (next (lens.get whole)).alone
        (lens.get (lens.put (set (lens.get whole)) whole)) = some (result, t) := by
      rwa [lens.get_put]
    have hrest := ih _ hstep
    rwa [lens.put_put] at hrest
  | hang => cases halone

theorem alone_interrupted (error : ε) (count : ℕ) (prog : Prog σ ε α) (s : σ) : ∃ raised,
      (prog.interrupted error count).alone s = some (.error raised, prog.killed count s) := by
  induction count generalizing prog s with
  | zero => cases prog <;> exact ⟨_, rfl⟩
  | succ count ih =>
    cases prog with
    | stmt set next => exact ih (next s) (set s)
    | raise raised => exact ⟨raised, by rw [killed_of_still rfl]; rfl⟩
    | _ => exact ⟨error, by rw [killed_of_still rfl]; rfl⟩

theorem left_of_alone (halone : prog.alone s = some (result, t)) : prog.left s = t := by
  induction prog generalizing s with
  | ret | raise => exact (Prod.mk.inj (Option.some.inj halone)).2
  | stmt set next ih => exact ih s halone
  | hang => cases halone

theorem exists_ends_of_alone (check : Except ε α × σ → Bool)
    (halone : (prog.alone s).any check = true) :
    ∃ result t, Ends R prog s result t ∧ check (result, t) = true := by
  cases hrun : prog.alone s with
  | none => simp [hrun] at halone
  | some outcome => exact ⟨outcome.1, outcome.2, ends_of_alone hrun, by simpa [hrun] using halone⟩

theorem left_bind_of_ok {value : α} (halone : prog.alone s = some (.ok value, t)) :
    (prog >>= next).left s = (next value).left t := by
  induction prog generalizing s with
  | ret found =>
    cases halone
    rfl
  | stmt set rest ih => exact ih s halone
  | _ => cases halone

theorem alone_of_ended (hended : prog.ended = true) (s : σ) :
    ∃ result, prog.alone s = some (result, s) := by
  cases prog with
  | ret | raise => exact ⟨_, rfl⟩
  | _ => cases hended

/-- Alone the program ends, as `post` says. -/
def Runs (post : Except ε α → σ → Prop) (prog : Prog σ ε α) (s : σ) : Prop :=
  ∃ result t, prog.alone s = some (result, t) ∧ post result t

namespace Runs

variable {mid : Except ε α → σ → Prop}

theorem ret {value : α} (hpost : mid (.ok value) s) : Runs mid (pure value : Prog σ ε α) s :=
  ⟨_, _, rfl, hpost⟩

theorem mono {weaker : Except ε α → σ → Prop} (hprog : prog.Runs mid s)
    (hle : ∀ result t, mid result t → weaker result t) : prog.Runs weaker s := by
  obtain ⟨result, t, halone, hmid⟩ := hprog
  exact ⟨result, t, halone, hle result t hmid⟩

theorem bind {next : α → Prog σ ε β} {post : Except ε β → σ → Prop} (hprog : prog.Runs mid s)
    (hnext : ∀ value t, mid (.ok value) t → (next value).Runs post t)
    (herror : ∀ error t, mid (.error error) t → post (.error error) t) :
    (prog >>= next).Runs post s := by
  obtain ⟨result, t, halone, hmid⟩ := hprog
  cases result with
  | ok value =>
    obtain ⟨result, u, hrest, hpost⟩ := hnext value t hmid
    exact ⟨result, u, (alone_bind_of_ok halone).trans hrest, hpost⟩
  | error error => exact ⟨.error error, t, alone_bind_of_error halone, herror error t hmid⟩

theorem tried_bind {δ : Type} {next : Except ε α → Prog σ δ β} {post : Except δ β → σ → Prop}
    (hprog : prog.Runs mid s) (hnext : ∀ result t, mid result t → (next result).Runs post t) :
    (prog.tried >>= next).Runs post s := by
  obtain ⟨result, t, halone, hmid⟩ := hprog
  obtain ⟨last, u, hrest, hpost⟩ := hnext result t hmid
  exact ⟨last, u, (alone_bind_of_ok (alone_tried halone)).trans hrest, hpost⟩

theorem forEach {items : List β} {body : β → Prog σ ε Unit} {fact : σ → Prop} {errors : ε → Prop}
    (hfact : fact s)
    (hbody : ∀ item t, fact t → (body item).Runs (fun result u => fact u ∧
      ∀ error, result = .error error → errors error) t) :
    (Prog.forEach items body).Runs (fun result u => fact u ∧
      ∀ error, result = .error error → errors error) s := by
  induction items generalizing s with
  | nil => exact ret ⟨hfact, nofun⟩
  | cons item rest ih =>
    refine (hbody item s hfact).bind (fun _ t hend => ih hend.1) fun error t hend => ?_
    exact ⟨hend.1, fun other hother => hend.2 other hother⟩

theorem iff_of_alone {result : Except ε α} (halone : prog.alone s = some (result, t)) :
    prog.Runs mid s ↔ mid result t := by
  constructor
  · rintro ⟨other, u, hsame, hmid⟩
    obtain ⟨rfl, rfl⟩ := Prod.mk.inj (Option.mem_unique halone hsame)
    exact hmid
  · exact fun hmid => ⟨result, t, halone, hmid⟩

end Runs

/-- The program ends, and right after its last statement `P` holds. Before the first one `held`
stands for it. -/
def Leaves (I P : σ → Prop) : Prog σ ε α → Prop → Prop
  | ret _, held => held
  | raise _, held => held
  | stmt set next, _ => ∀ s, I s → Leaves I P (next s) (P (set s))
  | hang, _ => False

namespace Leaves

variable {I P : σ → Prop} {held : Prop}

theorem of_ended (hended : prog.ended = true) (hheld : held) : prog.Leaves I P held := by
  cases prog with
  | ret | raise => exact hheld
  | _ => cases hended

theorem mono {weaker : Prop} (hleaves : prog.Leaves I P held) (hle : held → weaker) :
    prog.Leaves I P weaker := by
  cases prog with
  | ret | raise => exact hle hleaves
  | _ => exact hleaves

theorem restrict (hleaves : prog.Leaves (fun _ => True) P held) : prog.Leaves I P held := by
  induction prog generalizing held with
  | stmt set rest ih => exact fun s _ => ih s (hleaves s trivial)
  | _ => exact hleaves

theorem bind_ended {next : α → Prog σ ε β} (hleaves : prog.Leaves I P held)
    (hnext : ∀ value, (next value).ended = true) : (prog >>= next).Leaves I P held := by
  induction prog generalizing held with
  | ret value => exact of_ended (hnext value) hleaves
  | raise | hang => exact hleaves
  | stmt set rest ih => exact fun s hs => ih s (hleaves s hs)

theorem tried_bind_ended {δ : Type} {next : Except ε α → Prog σ δ β}
    (hleaves : prog.Leaves I P held) (hnext : ∀ result, (next result).ended = true) :
    (prog.tried >>= next).Leaves I P held := by
  induction prog generalizing held with
  | ret | raise => exact of_ended (hnext _) hleaves
  | stmt set rest ih => exact fun s hs => ih s (hleaves s hs)
  | hang => exact hleaves

theorem alone (hleaves : prog.Leaves (fun _ => True) P held) (hheld : held → P s) :
    ∃ result t, prog.alone s = some (result, t) ∧ P t := by
  induction prog generalizing held s with
  | ret | raise => exact ⟨_, s, rfl, hheld hleaves⟩
  | stmt set rest ih => exact ih s (hleaves s trivial) id
  | hang => exact hleaves.elim

end Leaves

/-- What holds when the program returns; nothing is said of exceptions. -/
def onReturn (post : α → σ → Prop) : Except ε α → σ → Prop
  | .ok value, s => post value s
  | .error _, _ => True

def onEnd (errors : ε → Prop) (post : α → σ → Prop) : Except ε α → σ → Prop
  | .ok value, s => post value s
  | .error error, _ => errors error

namespace Safe

theorem later (hsafe : Safe R G post prog s)
    (hsteps : Relation.ReflTransGen R s t) : Safe R G post prog t := by
  cases prog with
  | ret | raise | stmt => exact fun u hmore => hsafe u (hsteps.trans hmore)
  | hang => trivial

theorem bind {next : α → Prog σ ε β} {mid : Except ε α → σ → Prop}
    {post : Except ε β → σ → Prop} (hsafe : Safe R G mid prog s)
    (hnext : ∀ value t, mid (.ok value) t → Safe R G post (next value) t)
    (herror : ∀ error t, mid (.error error) t → post (.error error) t) :
    Safe R G post (prog >>= next) s := by
  induction prog generalizing s with
  | ret value => exact hnext value s (hsafe s Relation.ReflTransGen.refl)
  | raise error => exact fun t hsteps => herror error t (hsafe t hsteps)
  | stmt set rest ih =>
    intro t hsteps
    obtain ⟨hmove, hrest⟩ := hsafe t hsteps
    exact ⟨hmove, ih t hrest⟩
  | hang => trivial

theorem andThen {next : α → Prog σ ε β} {mid : α → σ → Prop}
    {post : β → σ → Prop} (hsafe : Safe R G (onReturn mid) prog s)
    (hnext : ∀ value t, mid value t → Safe R G (onReturn post) (next value) t) :
    Safe R G (onReturn post) (prog >>= next) s :=
  hsafe.bind hnext fun _ _ _ => trivial

theorem mono {post weaker : Except ε α → σ → Prop}
    (hsafe : Safe R G post prog s) (hle : ∀ result t, post result t → weaker result t) :
    Safe R G weaker prog s := by
  induction prog generalizing s with
  | ret | raise => exact fun t hsteps => hle _ t (hsafe t hsteps)
  | stmt set next ih =>
    intro t hsteps
    obtain ⟨hmove, hrest⟩ := hsafe t hsteps
    exact ⟨hmove, ih t hrest⟩
  | hang => trivial

theorem mono_return {after : α → σ → Prop} (hsafe : Safe R G post prog s)
    (hle : ∀ value t, post (.ok value) t → after value t) : Safe R G (onReturn after) prog s := by
  refine hsafe.mono fun result t hpost => ?_
  cases result with
  | ok value => exact hle value t hpost
  | error => trivial

theorem map {post : α → σ → Prop} {f : α → β} {after : β → σ → Prop}
    (hsafe : Safe R G (onReturn post) prog s) (hle : ∀ value t, post value t → after (f value) t) :
    Safe R G (onReturn after) (prog >>= fun value => (pure (f value) : Prog σ ε β)) s := by
  induction prog generalizing s with
  | ret value => exact fun t hsteps => hle value t (hsafe t hsteps)
  | raise => exact fun _ _ => trivial
  | stmt set next ih =>
    intro t hsteps
    obtain ⟨hmove, hrest⟩ := hsafe t hsteps
    exact ⟨hmove, ih t hrest⟩
  | hang => trivial

/-- Statements in the guarantee carry along any fact that neither they nor the others break. -/
theorem of_moves {W : σ → σ → Prop} {fact : σ → Prop} (hprog : prog.Moves W)
    (hguarantee : ∀ s t, fact s → W s t → G s t) (hstable : Stable R fact) (hown : Stable W fact)
    (hfact : fact s) : Safe R G (fun _ => fact) prog s := by
  induction prog generalizing s with
  | ret | raise => exact fun t hsteps => hstable.steps hsteps hfact
  | stmt set next ih =>
    intro t hsteps
    obtain ⟨hmove, hrest⟩ := hprog t
    have hthen := hstable.steps hsteps hfact
    exact ⟨hguarantee _ _ hthen hmove, ih t hrest (hown _ _ hmove hthen)⟩
  | hang => trivial

theorem tried_bind {δ : Type} {next : Except ε α → Prog σ δ β}
    {after : Except δ β → σ → Prop} (hsafe : Safe R G post prog s)
    (hnext : ∀ result t, post result t → Safe R G after (next result) t) :
    Safe R G after (prog.tried >>= next) s := by
  induction prog generalizing s with
  | ret | raise => exact hnext _ s (hsafe s Relation.ReflTransGen.refl)
  | stmt set rest ih =>
    intro t hsteps
    obtain ⟨hmove, hrest⟩ := hsafe t hsteps
    exact ⟨hmove, ih t hrest⟩
  | hang => trivial

theorem zoom {τ : Type} {lens : Lens τ σ} {V H : τ → τ → Prop} {after : Except ε α → τ → Prop}
    {whole : τ} (hsafe : Safe R G post prog (lens.get whole))
    (hrely : ∀ s t, V s t → R (lens.get s) (lens.get t))
    (hguarantee : ∀ s part, G (lens.get s) part → H s (lens.put part s))
    (hpost : ∀ result t, post result (lens.get t) → after result t) :
    Safe V H after (prog.zoom lens) whole := by
  have hlift {s t : τ} (hsteps : Relation.ReflTransGen V s t) :
      Relation.ReflTransGen R (lens.get s) (lens.get t) := hsteps.lift lens.get hrely
  induction prog generalizing whole with
  | ret | raise => exact fun t hsteps => hpost _ t (hsafe _ (hlift hsteps))
  | stmt set next ih =>
    intro t hsteps
    obtain ⟨hmove, hrest⟩ := hsafe _ (hlift hsteps)
    refine ⟨hguarantee _ _ hmove, ih _ ?_⟩
    rwa [lens.get_put]
  | hang => trivial

section

variable (hsafe : Safe R G post prog s)

include hsafe

theorem advance : Safe R G post (prog.advance s).2 (prog.advance s).1 := by
  cases prog with
  | stmt => exact (hsafe s Relation.ReflTransGen.refl).2
  | _ => exact hsafe

theorem advance_move : G s (prog.advance s).1 ∨ (prog.advance s).1 = s := by
  cases prog with
  | stmt => exact Or.inl (hsafe s Relation.ReflTransGen.refl).1
  | _ => exact Or.inr rfl

theorem killed (count : ℕ) : Relation.ReflTransGen G s (prog.killed count s) := by
  induction count generalizing prog s with
  | zero => exact Relation.ReflTransGen.refl
  | succ count ih =>
    rcases hsafe.advance_move with hmove | hsame
    · exact Relation.ReflTransGen.head hmove (ih hsafe.advance)
    · have hrest := ih hsafe.advance
      rw [hsame] at hrest
      change Relation.ReflTransGen G s ((prog.advance s).2.killed count (prog.advance s).1)
      rwa [hsame]

theorem left : Relation.ReflTransGen G s (prog.left s) := by
  induction prog generalizing s with
  | stmt set next ih =>
    obtain ⟨hmove, hrest⟩ := hsafe s Relation.ReflTransGen.refl
    exact Relation.ReflTransGen.head hmove (ih s hrest)
  | _ => exact Relation.ReflTransGen.refl

theorem of_ends {result : Except ε α} (hends : Ends R prog s result t) : post result t := by
  induction hends with
  | ret hsteps | raise hsteps => exact hsafe _ hsteps
  | stmt hsteps _ ih => exact ih (hsafe _ hsteps).2

theorem of_acts {u : σ} (hacts : Acts R prog s t u) : G t u := by
  induction hacts with
  | now hsteps => exact (hsafe _ hsteps).1
  | later hsteps _ ih => exact ih (hsafe _ hsteps).2

end

theorem raise {post : α → σ → Prop} (error : ε) : Safe R G (onReturn post) (.raise error) s :=
  fun _ _ => trivial

variable {next : β → Prog σ ε α} {todo : List β → σ → Prop} {body : β → Prog σ ε Unit}
  {result : Except ε β} {errors : ε → Prop} {items : List β}

theorem ofExcept_bind_onEnd {post : α → σ → Prop}
    (herror : ∀ error, result = .error error → errors error)
    (hnext : ∀ value, result = .ok value → Safe R G (onEnd errors post) (next value) s) :
    Safe R G (onEnd errors post) (Prog.ofExcept result >>= next) s := by
  cases result with
  | ok value => exact hnext value rfl
  | error error => exact fun _ _ => herror error rfl

theorem ofExcept_bind {post : α → σ → Prop}
    (hnext : ∀ value, result = .ok value → Safe R G (onReturn post) (next value) s) :
    Safe R G (onReturn post) (Prog.ofExcept result >>= next) s := by
  exact ofExcept_bind_onEnd (fun _ _ => trivial) hnext

theorem read_bind {view : σ → β}
    (hread : ∀ t, Relation.ReflTransGen R s t → G t t ∧ Safe R G post (next (view t)) t) :
    Safe R G post (Prog.read view >>= next) s :=
  hread

theorem write_bind {set : σ → σ} {next : Unit → Prog σ ε α}
    (hwrite : ∀ t, Relation.ReflTransGen R s t → G t (set t) ∧ Safe R G post (next ()) (set t)) :
    Safe R G post (Prog.write set >>= next) s :=
  hwrite

theorem exec_bind {run : σ → σ × β} (hexec : ∀ t, Relation.ReflTransGen R s t →
      G t (run t).1 ∧ Safe R G post (next (run t).2) (run t).1) :
    Safe R G post (Prog.exec run >>= next) s :=
  hexec

theorem attempt {run : σ → Except ε σ} {post : Unit → σ → Prop}
    (hrun : ∀ t, Relation.ReflTransGen R s t → G t (attempted run t) ∧
      ∀ u, Relation.ReflTransGen R (attempted run t) u → post () u) :
    Safe R G (onReturn post) (Prog.attempt run) s := by
  intro t hsteps
  obtain ⟨hmove, hpost⟩ := hrun t hsteps
  refine ⟨hmove, ?_⟩
  dsimp only
  split
  · exact hpost
  · exact fun _ _ => trivial

theorem forEach_onEnd (hstable : ∀ rest, Stable R (todo rest)) (htodo : todo items s)
    (hbody : ∀ item rest t, todo (item :: rest) t →
      Safe R G (onEnd errors fun _ => todo rest) (body item) t) :
    Safe R G (onEnd errors fun _ => todo []) (Prog.forEach items body) s := by
  induction items generalizing s with
  | nil => exact fun t hsteps => (hstable []).steps hsteps htodo
  | cons item rest ih =>
    exact (hbody item rest s htodo).bind (fun _ t hrest => ih hrest) fun _ _ herror => herror

theorem forEach (hstable : ∀ rest, Stable R (todo rest)) (htodo : todo items s)
    (hbody : ∀ item rest t, todo (item :: rest) t →
      Safe R G (onReturn fun _ => todo rest) (body item) t) :
    Safe R G (onReturn fun _ => todo []) (Prog.forEach items body) s := by
  exact forEach_onEnd hstable htodo hbody

end Safe

end

end Prog

/-! ### Pools -/

structure Thread (ι σ ε α : Type) where
  label : ι
  prog : Prog σ ε α

structure Pool (ι σ ε α : Type) where
  shared : σ
  threads : List (Thread ι σ ε α) := []

/-- A program starts, a running one takes its next statement, or something else moves. -/
inductive Move (ι σ ε α : Type) where
  | spawn (label : ι) (prog : Prog σ ε α)
  | advance (index : ℕ)
  | outside (set : σ → σ)

namespace Pool

variable {ι σ ε α : Type}

def step (pool : Pool ι σ ε α) : Move ι σ ε α → Pool ι σ ε α
  | .spawn label prog => { pool with threads := pool.threads ++ [⟨label, prog⟩] }
  | .advance index =>
    match pool.threads[index]? with
    | none => pool
    | some thread =>
      { shared := (thread.prog.advance pool.shared).1
        threads := pool.threads.set index
          { thread with prog := (thread.prog.advance pool.shared).2 } }
  | .outside set => { pool with shared := set pool.shared }

def Safe (R G : σ → σ → Prop) (post : ι → Except ε α → σ → Prop) (pool : Pool ι σ ε α) : Prop :=
  ∀ thread ∈ pool.threads, thread.prog.Safe R G (post thread.label) pool.shared

section

variable {R G : σ → σ → Prop} {post : ι → Except ε α → σ → Prop} {pool : Pool ι σ ε α}

variable {index : ℕ} {thread : Thread ι σ ε α}

theorem step_advance_none (hget : pool.threads[index]? = none) :
    pool.step (.advance index) = pool := by
  simp [step, hget]

theorem step_advance (hget : pool.threads[index]? = some thread) :
    (pool.step (.advance index)).shared = (thread.prog.advance pool.shared).1 ∧
      (pool.step (.advance index)).threads = pool.threads.set index
        { thread with prog := (thread.prog.advance pool.shared).2 } := by
  simp [step, hget]

theorem mem_advance (hmem : thread ∈ (pool.step (.advance index)).threads) :
    (∃ other, other ≠ index ∧ pool.threads[other]? = some thread) ∨
      ∃ old, pool.threads[index]? = some old ∧
        thread = { old with prog := (old.prog.advance pool.shared).2 } ∧
        (pool.step (.advance index)).shared = (old.prog.advance pool.shared).1 := by
  obtain ⟨place, hplace⟩ := List.mem_iff_getElem?.mp hmem
  cases hget : pool.threads[index]? with
  | none =>
    rw [step_advance_none hget] at hplace
    refine Or.inl ⟨place, ?_, hplace⟩
    rintro rfl
    rw [hget] at hplace
    cases hplace
  | some old =>
    obtain ⟨hshared, hthreads⟩ := step_advance hget
    rw [hthreads, List.getElem?_set] at hplace
    by_cases heq : index = place
    · subst heq
      have hlt : index < pool.threads.length := (List.getElem?_eq_some_iff.mp hget).1
      rw [if_pos rfl, if_pos hlt] at hplace
      exact Or.inr ⟨old, rfl, (Option.some.inj hplace).symm, hshared⟩
    · rw [if_neg heq] at hplace
      exact Or.inl ⟨place, Ne.symm heq, hplace⟩

variable (hsafe : pool.Safe R G post)

include hsafe

theorem Safe.spawn {label : ι} {prog : Prog σ ε α}
    (hprog : prog.Safe R G (post label) pool.shared) :
    (pool.step (.spawn label prog)).Safe R G post := by
  intro thread hmem
  rcases List.mem_append.mp hmem with hold | hnew
  · exact hsafe thread hold
  · obtain rfl := List.mem_singleton.mp hnew
    exact hprog

theorem Safe.outside {set : σ → σ} (hmove : R pool.shared (set pool.shared)) :
    (pool.step (.outside set)).Safe R G post :=
  fun thread hmem => (hsafe thread hmem).later (Relation.ReflTransGen.single hmove)

theorem Safe.advance_shared (index : ℕ) :
    G pool.shared (pool.step (.advance index)).shared ∨
      (pool.step (.advance index)).shared = pool.shared := by
  cases hget : pool.threads[index]? with
  | none => exact Or.inr (congrArg shared (step_advance_none hget))
  | some active =>
    rw [(step_advance hget).1]
    exact (hsafe active (List.mem_of_getElem? hget)).advance_move

theorem Safe.advance (index : ℕ) (hrely : G pool.shared (pool.step (.advance index)).shared →
      R pool.shared (pool.step (.advance index)).shared) :
    (pool.step (.advance index)).Safe R G post := by
  intro thread hmem
  rcases mem_advance hmem with ⟨other, -, hget⟩ | ⟨old, hget, rfl, hshared⟩
  · have hsteps : Relation.ReflTransGen R pool.shared (pool.step (.advance index)).shared := by
      rcases hsafe.advance_shared index with hmove | hsame
      · exact Relation.ReflTransGen.single (hrely hmove)
      · rw [hsame]
    exact (hsafe thread (List.mem_of_getElem? hget)).later hsteps
  · have hmine := hsafe old (List.mem_of_getElem? hget)
    rw [hshared]
    exact hmine.advance

theorem Safe.returned (hmem : thread ∈ pool.threads) (hreturned : thread.prog.returned = true) :
    ∃ value, post thread.label (.ok value) pool.shared := by
  obtain ⟨value, hret⟩ := Prog.eq_ret_of_returned hreturned
  have hprog := hsafe thread hmem
  rw [hret] at hprog
  exact ⟨value, hprog pool.shared Relation.ReflTransGen.refl⟩

end

end Pool
