import BrokerParrot.ServerContext

/-!
# Flags on a command line

For one flag, a command line is a sequence of pieces: the flag with the token after it, the flag
with an assigned value, and all other tokens. Only a bare flag at the very end is itself a token of
the last kind.
-/

namespace BrokerParrot

open List

variable {flag : String} {argv rest : List String} {number : ℤ}

/-! ### Reading a flag -/

section

variable {value token : String}

theorem assignedValue_assigned (flag value : String) :
    assignedValue flag (flag ++ "=" ++ value) = some value := by
  unfold assignedValue
  have htext : (flag ++ "=" ++ value).toList = (flag.toList ++ ['=']) ++ value.toList := by simp
  rw [htext, if_pos (List.isPrefixOf_iff_prefix.mpr (prefix_append ..))]
  have hdrop : ((flag.toList ++ ['=']) ++ value.toList).drop (flag.toList.length + 1) =
      value.toList := drop_left' (by simp)
  rw [hdrop, String.ofList_toList]

theorem eq_assigned (hvalue : assignedValue flag token = some value) :
    token = flag ++ "=" ++ value := by
  obtain ⟨hbegins, hrest⟩ := Option.ite_none_right_eq_some.mp hvalue
  obtain ⟨rest, htoken⟩ := isPrefixOf_iff_prefix.mp hbegins
  have hdrop : token.toList.drop (flag.toList.length + 1) = rest := by
    rw [← htoken]
    exact drop_left' (by simp)
  cases hrest
  apply String.ext
  simp [← htoken]

theorem assigned_ne_flag (flag value : String) : flag ++ "=" ++ value ≠ flag := by
  intro hsame
  have hlength := congrArg (fun text => text.toList.length) hsame
  simp at hlength

theorem argvFlag_assigned (flag value : String) (rest : List String) :
    argvFlag flag ((flag ++ "=" ++ value) :: rest) = some value := by
  cases rest with
  | nil => exact assignedValue_assigned flag value
  | cons =>
    unfold argvFlag
    rw [if_neg (assigned_ne_flag flag value), assignedValue_assigned]

theorem argvFlag_skip {next : String} (hbare : token ≠ flag)
    (hassigned : assignedValue flag token = none) :
    argvFlag flag (token :: next :: rest) = argvFlag flag (next :: rest) := by
  conv_lhs => unfold argvFlag
  rw [if_neg hbare, hassigned]

theorem argvFlag_append (hnone : argvFlag flag argv = none) (value : String) :
    argvFlag flag (argv ++ [flag, value]) =
      some (if argv.getLast? = some flag then flag else value) := by
  fun_induction argvFlag flag argv with
  | case1 => simp [argvFlag]
  | case2 token =>
    by_cases hbare : token = flag
    · simp [argvFlag, hbare]
    · have hskip : argvFlag flag ([token] ++ [flag, value]) = argvFlag flag [flag, value] :=
        argvFlag_skip hbare hnone
      rw [hskip]
      simp [argvFlag, hbare]
  | case3 => cases hnone
  | case4 => simp_all
  | case5 token next rest hbare hassigned ih =>
    rw [getLast?_cons_cons, ← ih hnone]
    exact argvFlag_skip hbare hassigned

end

namespace ServerContext

/-! ### Pieces -/

inductive Piece where
  | other (token : String)
  | bare (value : String)
  | assigned (value : String)
  deriving DecidableEq

variable {line : List Piece}

namespace Piece

def value? : Piece → Option String
  | other _ => none
  | bare value => some value
  | assigned value => some value

def tokens (flag : String) : Piece → List String
  | other token => [token]
  | bare value => [flag, value]
  | assigned value => [flag ++ "=" ++ value]

def set (value : Option String) : Piece → Option Piece
  | other token => some (other token)
  | bare _ => value.map bare
  | assigned _ => value.map assigned

end Piece

def pieces (flag : String) : List String → List Piece
  | [] => []
  | [token] =>
    match assignedValue flag token with
    | some value => [.assigned value]
    | none => [.other token]
  | token :: next :: rest =>
    if token = flag then
      .bare next :: pieces flag rest
    else
      match assignedValue flag token with
      | some value => .assigned value :: pieces flag (next :: rest)
      | none => .other token :: pieces flag (next :: rest)

def render (flag : String) (line : List Piece) : List String := line.flatMap (Piece.tokens flag)

def flagValues (flag : String) (argv : List String) : List String :=
  (pieces flag argv).filterMap Piece.value?

def Proper (flag : String) : List Piece → Prop
  | [] => True
  | .other token :: rest =>
    assignedValue flag token = none ∧ (token = flag → rest = []) ∧ Proper flag rest
  | .bare _ :: rest => Proper flag rest
  | .assigned _ :: rest => Proper flag rest

theorem render_pieces (flag : String) (argv : List String) :
    render flag (pieces flag argv) = argv := by
  fun_induction pieces flag argv with
  | case1 => rfl
  | case2 token value hvalue => exact congrArg (· :: []) (eq_assigned hvalue).symm
  | case3 => rfl
  | case4 next rest ih => exact congrArg (fun argv => flag :: next :: argv) ih
  | case5 token next rest hbare value hvalue ih =>
    have htoken := eq_assigned hvalue
    exact (congrArg ((flag ++ "=" ++ value) :: ·) ih).trans (by rw [htoken])
  | case6 token next rest hbare hassigned ih => exact congrArg (token :: ·) ih

theorem pieces_injective : Function.Injective (pieces flag) :=
  Function.LeftInverse.injective (render_pieces flag)

theorem proper_pieces (flag : String) (argv : List String) :
    Proper flag (pieces flag argv) := by
  fun_induction pieces flag argv with
  | case1 => trivial
  | case2 => trivial
  | case3 token hassigned => exact ⟨hassigned, fun _ => rfl, trivial⟩
  | case4 next rest ih => exact ih
  | case5 token next rest hbare value hvalue ih => exact ih
  | case6 token next rest hbare hassigned ih =>
    exact ⟨hassigned, fun hflag => absurd hflag hbare, ih⟩

theorem pieces_other {token : String} (hassigned : assignedValue flag token = none)
    (hbare : token = flag → rest = []) :
    pieces flag (token :: rest) = .other token :: pieces flag rest := by
  cases rest with
  | nil => simp [pieces, hassigned]
  | cons =>
    have hne : token ≠ flag := fun hflag => cons_ne_nil _ _ (hbare hflag)
    rw [pieces, if_neg hne, hassigned]

theorem pieces_assigned (value : String) (rest : List String) :
    pieces flag ((flag ++ "=" ++ value) :: rest) = .assigned value :: pieces flag rest := by
  cases rest with
  | nil => simp [pieces, assignedValue_assigned]
  | cons => rw [pieces, if_neg (assigned_ne_flag flag value), assignedValue_assigned]

theorem pieces_bare (value : String) (rest : List String) :
    pieces flag (flag :: value :: rest) = .bare value :: pieces flag rest := by
  rw [pieces, if_pos rfl]

theorem render_eq_nil (hline : line = []) : render flag line = [] := by
  rw [hline]
  rfl

theorem pieces_render (hproper : Proper flag line) : pieces flag (render flag line) = line := by
  induction line with
  | nil => rfl
  | cons piece rest ih =>
    cases piece with
    | other token =>
      obtain ⟨hassigned, hbare, hrest⟩ := hproper
      refine (pieces_other hassigned fun hflag => render_eq_nil (hbare hflag)).trans ?_
      exact congrArg (Piece.other token :: ·) (ih hrest)
    | bare value =>
      refine (pieces_bare value _).trans ?_
      exact congrArg (Piece.bare value :: ·) (ih hproper)
    | assigned value =>
      refine (pieces_assigned value _).trans ?_
      exact congrArg (Piece.assigned value :: ·) (ih hproper)

theorem Proper.set (hproper : Proper flag line) (value : Option String) :
    Proper flag (line.filterMap (Piece.set value)) := by
  induction line with
  | nil => trivial
  | cons piece rest ih =>
    cases piece with
    | other =>
      obtain ⟨hassigned, hbare, hrest⟩ := hproper
      refine ⟨hassigned, fun hflag => ?_, ih hrest⟩
      rw [hbare hflag]
      rfl
    | bare | assigned => cases value <;> exact ih hproper

theorem argvFlag_eq (argv : List String) : argvFlag flag argv = (flagValues flag argv).head? := by
  unfold flagValues
  fun_induction pieces flag argv with
  | case1 => rfl
  | case2 token value hvalue => exact hvalue
  | case3 token hassigned => exact hassigned
  | case4 next rest ih => simp [argvFlag, Piece.value?]
  | case5 token next rest hbare value hvalue ih => simp [argvFlag, hbare, hvalue, Piece.value?]
  | case6 token next rest hbare hassigned ih =>
    rw [argvFlag_skip hbare hassigned, ih]
    rfl

theorem rewriteFlag_eq (value : Option String) (argv : List String) :
    rewriteFlag flag value argv =
      (render flag ((pieces flag argv).filterMap (Piece.set value)),
        value.isSome && !(flagValues flag argv).isEmpty) := by
  unfold flagValues
  fun_induction pieces flag argv with
  | case1 => cases value <;> rfl
  | case2 token old hold =>
    cases value <;> simp [rewriteFlag, hold, Piece.set, Piece.value?, render, Piece.tokens]
  | case3 token hassigned =>
    cases value <;> simp [rewriteFlag, hassigned, Piece.set, Piece.value?, render, Piece.tokens]
  | case4 next rest ih =>
    cases value <;> simp [rewriteFlag, ih, Piece.set, Piece.value?, render, Piece.tokens,
        filterMap_cons]
  | case5 token next rest hbare old hold ih =>
    cases value <;>
      simp [rewriteFlag, hbare, hold, ih, Piece.set, Piece.value?, render, Piece.tokens,
        filterMap_cons]
  | case6 token next rest hbare hassigned ih =>
    cases value <;>
      simp [rewriteFlag, hbare, hassigned, ih, Piece.set, Piece.value?, render, Piece.tokens,
        filterMap_cons]

/-! ### Writing a flag -/

theorem values_set_some (value : String) :
    (line.filterMap (Piece.set (some value))).filterMap Piece.value? =
      (line.filterMap Piece.value?).map fun _ => value := by
  induction line with
  | nil => rfl
  | cons piece rest ih =>
    cases piece <;> simp [filterMap_cons, Piece.set, Piece.value?, ih]

theorem set_set (value : String) (later : Option String) :
    (line.filterMap (Piece.set (some value))).filterMap (Piece.set later) =
      line.filterMap (Piece.set later) := by
  rw [filterMap_filterMap]
  congr 1
  funext piece
  cases piece <;> rfl

theorem Piece.exists_set {piece : Piece} {old : String} (hvalue : piece.value? = some old)
    (value : String) :
    ∃ new, piece.set (some value) = some new ∧ (new = piece ↔ old = value) := by
  cases piece with
  | other => exact nomatch hvalue
  | bare => exact ⟨.bare value, rfl, by simp [← Option.some.inj hvalue, eq_comm]⟩
  | assigned => exact ⟨.assigned value, rfl, by simp [← Option.some.inj hvalue, eq_comm]⟩

theorem set_eq_self_iff (value : Option String) :
    line.filterMap (Piece.set value) = line ↔
      ∀ old ∈ line.filterMap Piece.value?, some old = value := by
  induction line with
  | nil => simp
  | cons piece rest ih =>
    have hshort : ∀ head, rest.filterMap (Piece.set value) ≠ head :: rest := fun head heq => by
      have hle := length_filterMap_le (Piece.set value) rest
      rw [heq, length_cons] at hle
      omega
    cases hvalue : piece.value? with
    | none =>
      have hset : piece.set value = some piece := by
        cases piece <;> first | rfl | exact nomatch hvalue
      rw [filterMap_cons_some hset, filterMap_cons_none hvalue, List.cons.injEq, ih]
      exact and_iff_right rfl
    | some =>
      rw [filterMap_cons_some hvalue, forall_mem_cons, ← ih]
      cases value with
      | none =>
        have hset : piece.set none = none := by
          cases piece <;> first | rfl | exact nomatch hvalue
        rw [filterMap_cons_none hset]
        exact iff_of_false (hshort piece) fun hall => nomatch hall.1
      | some value =>
        obtain ⟨new, hset, hnew⟩ := Piece.exists_set hvalue value
        rw [filterMap_cons_some hset, List.cons.injEq, Option.some.injEq, hnew]

def Strict (flag : String) (line : List Piece) : Prop :=
  ∀ token, .other token ∈ line → assignedValue flag token = none ∧ token ≠ flag

theorem proper_append_iff {front back : List Piece} (hback : back ≠ []) :
    Proper flag (front ++ back) ↔ Strict flag front ∧ Proper flag back := by
  induction front with
  | nil => simp [Strict]
  | cons piece rest ih =>
    have hmore : rest ++ back ≠ [] := append_ne_nil_of_right_ne_nil _ hback
    cases piece <;>
      simp [Proper, Strict, ih, hmore, forall_and, or_imp, and_assoc, and_left_comm]

theorem pieces_rewriteFlag (value : Option String) (argv : List String) :
    pieces flag (rewriteFlag flag value argv).1 =
      (pieces flag argv).filterMap (Piece.set value) := by
  rw [rewriteFlag_eq]
  exact pieces_render ((proper_pieces flag argv).set value)

theorem pieces_remove (argv : List String) :
    pieces flag (argvWithFlag argv flag none) = (pieces flag argv).filterMap (Piece.set none) :=
  pieces_rewriteFlag none argv

theorem pieces_replace (value : String) (hvalues : flagValues flag argv ≠ []) :
    pieces flag (argvWithFlag argv flag (some value)) =
      (pieces flag argv).filterMap (Piece.set (some value)) := by
  have hreplaced : (rewriteFlag flag (some value) argv).2 = true := by
    rw [rewriteFlag_eq]
    simp [hvalues]
  unfold argvWithFlag
  dsimp only
  rw [if_pos hreplaced]
  exact pieces_rewriteFlag (some value) argv

section

variable (hvalues : flagValues flag argv = [])

include hvalues

theorem pieces_of_absent : pieces flag argv = argv.map Piece.other := by
  unfold flagValues at hvalues
  conv_rhs => rw [← render_pieces flag argv]
  generalize pieces flag argv = line at hvalues
  induction line with
  | nil => rfl
  | cons piece rest ih =>
    cases piece with
    | other token => exact congrArg (Piece.other token :: ·) (ih hvalues)
    | bare | assigned => exact absurd hvalues (cons_ne_nil _ _)

theorem argvWithFlag_absent (value : String) :
    argvWithFlag argv flag (some value) = argv ++ [flag, value] := by
  have hadded : (rewriteFlag flag (some value) argv).2 = false := by
    rw [rewriteFlag_eq]
    simp [hvalues]
  have hsame : (rewriteFlag flag (some value) argv).1 = argv := by
    apply pieces_injective
    rw [pieces_rewriteFlag, set_eq_self_iff]
    intro old hold
    change old ∈ flagValues flag argv at hold
    exact absurd (hvalues ▸ hold) not_mem_nil
  unfold argvWithFlag
  dsimp only
  rw [if_neg (Bool.eq_false_iff.mp hadded), hsame]

theorem strict_of_absent (hend : argv.getLast? ≠ some flag) : Strict flag (pieces flag argv) := by
  have hproper := proper_pieces flag argv
  rw [pieces_of_absent hvalues] at hproper ⊢
  rcases eq_nil_or_concat' argv with rfl | ⟨front, last, rfl⟩
  · exact fun token htoken => absurd htoken not_mem_nil
  · rw [map_append, proper_append_iff (by simp)] at hproper
    rw [getLast?_concat] at hend
    intro token htoken
    rw [map_append, mem_append] at htoken
    rcases htoken with hfront | hlast
    · exact hproper.1 token hfront
    · obtain rfl := Piece.other.inj (mem_singleton.mp hlast)
      exact ⟨hproper.2.1, fun hflag => hend (congrArg some hflag)⟩

theorem pieces_add (hend : argv.getLast? ≠ some flag) (value : String) :
    pieces flag (argvWithFlag argv flag (some value)) = pieces flag argv ++ [.bare value] := by
  have hproper : Proper flag (pieces flag argv ++ [.bare value]) :=
    (proper_append_iff (by simp)).mpr ⟨strict_of_absent hvalues hend, trivial⟩
  have hrender : render flag (pieces flag argv ++ [.bare value]) = argv ++ [flag, value] := by
    unfold render
    rw [flatMap_append]
    exact congrArg (· ++ [flag, value]) (render_pieces flag argv)
  rw [argvWithFlag_absent hvalues, ← hrender, pieces_render hproper]

theorem pieces_add_stuck {front : List String} (hargv : argv = front ++ [flag]) {value : String}
    (hassigned : assignedValue flag value = none) :
    pieces flag (argvWithFlag argv flag (some value)) =
      front.map Piece.other ++ [.bare flag, .other value] := by
  have hproper := proper_pieces flag argv
  rw [pieces_of_absent hvalues, hargv, map_append, proper_append_iff (by simp)] at hproper
  have hnew : Proper flag (front.map Piece.other ++ [.bare flag, .other value]) :=
    (proper_append_iff (by simp)).mpr ⟨hproper.1, hassigned, fun _ => rfl, trivial⟩
  have hrender : render flag (front.map Piece.other ++ [.bare flag, .other value]) =
      argv ++ [flag, value] := by
    unfold render
    rw [flatMap_append, hargv, flatMap_map]
    simp [Piece.tokens]
  rw [argvWithFlag_absent hvalues, ← hrender, pieces_render hnew]

end

def Stuck (flag : String) (argv : List String) : Prop :=
  flagValues flag argv = [] ∧ argv.getLast? = some flag

section

variable (hfree : ¬ Stuck flag argv)

include hfree

theorem flagValues_write (value : String) :
    ∃ times, flagValues flag (argvWithFlag argv flag (some value)) =
      List.replicate (times + 1) value := by
  by_cases hvalues : flagValues flag argv = []
  · refine ⟨0, ?_⟩
    have hend : argv.getLast? ≠ some flag := fun hend => hfree ⟨hvalues, hend⟩
    unfold flagValues at hvalues ⊢
    rw [pieces_add hvalues hend, filterMap_append, hvalues]
    rfl
  · refine ⟨(flagValues flag argv).length - 1, ?_⟩
    have hlength := length_pos_iff.mpr hvalues
    conv_lhs => rw [flagValues, pieces_replace value hvalues, values_set_some]
    rw [Nat.sub_add_cancel hlength]
    exact map_const

theorem argvFlag_write (value : String) :
    argvFlag flag (argvWithFlag argv flag (some value)) = some value := by
  obtain ⟨times, hvalues⟩ := flagValues_write hfree value
  rw [argvFlag_eq, hvalues]
  rfl

theorem write_write (value : String) (later : Option String) :
    argvWithFlag (argvWithFlag argv flag (some value)) flag later =
      argvWithFlag argv flag later := by
  apply pieces_injective
  obtain ⟨times, hgiven⟩ := flagValues_write hfree value
  have hpresent : flagValues flag (argvWithFlag argv flag (some value)) ≠ [] := by
    rw [hgiven]
    exact cons_ne_nil _ _
  have hsecond : pieces flag (argvWithFlag (argvWithFlag argv flag (some value)) flag later) =
      (pieces flag (argvWithFlag argv flag (some value))).filterMap (Piece.set later) := by
    cases later with
    | none => exact pieces_remove _
    | some later => exact pieces_replace later hpresent
  rw [hsecond]
  by_cases hvalues : flagValues flag argv = []
  · have hend : argv.getLast? ≠ some flag := fun hend => hfree ⟨hvalues, hend⟩
    have hkeeps : (pieces flag argv).filterMap (Piece.set later) = pieces flag argv := by
      rw [set_eq_self_iff]
      intro old hold
      change old ∈ flagValues flag argv at hold
      exact absurd (hvalues ▸ hold) not_mem_nil
    rw [pieces_add hvalues hend, filterMap_append, hkeeps]
    cases later with
    | none => rw [pieces_remove, hkeeps]; exact append_nil _
    | some => rw [pieces_add hvalues hend]; rfl
  · rw [pieces_replace value hvalues, set_set]
    cases later with
    | none => rw [pieces_remove]
    | some later => rw [pieces_replace later hvalues]

end

theorem write_eq_self_iff (value : Option String) :
    argvWithFlag argv flag value = argv ↔
      (∀ old ∈ flagValues flag argv, some old = value) ∧
        (flagValues flag argv = [] → value = none) := by
  rw [← pieces_injective.eq_iff (f := pieces flag)]
  cases value with
  | none =>
    rw [pieces_remove, set_eq_self_iff]
    exact (and_iff_left fun _ => rfl).symm
  | some value =>
    by_cases hvalues : flagValues flag argv = []
    · rw [pieces_injective.eq_iff, argvWithFlag_absent hvalues]
      simp [hvalues]
    · rw [pieces_replace value hvalues, set_eq_self_iff]
      exact (and_iff_left fun habsent => absurd habsent hvalues).symm

/-! ### Numbers as values -/

theorem digits_of_pos (hpos : 0 < number) :
    ∀ char ∈ (toString number).toList, char.isDigit = true := by
  obtain ⟨number, rfl⟩ := Int.eq_ofNat_of_zero_le hpos.le
  have htext : (toString (number : ℤ)).toList = Nat.toDigits 10 number := Nat.toList_repr
  intro char hchar
  rw [htext] at hchar
  exact Nat.isDigit_of_mem_toDigits (by decide) (by decide) hchar

section

variable (hdash : '-' ∈ flag.toList) (hpos : 0 < number)

include hdash hpos

theorem toString_ne_flag : toString number ≠ flag := by
  intro hflag
  have hdigit := digits_of_pos hpos '-' (by rwa [hflag])
  cases hdigit

theorem assignedValue_toString : assignedValue flag (toString number) = none := by
  by_contra hsome
  obtain ⟨value, hvalue⟩ := Option.ne_none_iff_exists'.mp hsome
  have hdigit := digits_of_pos hpos '-' (by
    rw [eq_assigned hvalue]
    simp [hdash])
  cases hdigit

end

end ServerContext

end BrokerParrot
