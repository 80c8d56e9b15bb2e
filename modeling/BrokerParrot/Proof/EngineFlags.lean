import BrokerParrot.Proof.CommandLine

/-!
# The engine's flags on one command line

A command line on which every flag of the engine is followed by a value falls into parts: a flag
with its value, in one of two forms, and other tokens.
-/

namespace BrokerParrot

open List

variable {token flag value : String}

namespace ServerContext

def IsValue (token : String) : Prop :=
  token ∉ engineFlags ∧ ∀ flag ∈ engineFlags, assignedValue flag token = none

def ValuesFollow : List String → Prop
  | [] => True
  | [token] => token ∉ engineFlags
  | token :: next :: rest => (token ∈ engineFlags → IsValue next) ∧ ValuesFollow (next :: rest)

inductive Part where
  | other (token : String)
  | bare (flag value : String)
  | assigned (flag value : String)

namespace Part

def tokens : Part → List String
  | other token => [token]
  | bare flag value => [flag, value]
  | assigned flag value => [flag ++ "=" ++ value]

def Valid : Part → Prop
  | other token => IsValue token
  | bare flag value => flag ∈ engineFlags ∧ IsValue value
  | assigned flag _ => flag ∈ engineFlags

def pieces (flag : String) : Part → List Piece
  | other token => [.other token]
  | bare name value => if name = flag then [.bare value] else [.other name, .other value]
  | assigned name value =>
    if name = flag then [.assigned value] else [.other (name ++ "=" ++ value)]

def value? (flag : String) : Part → Option String
  | other _ => none
  | bare name value => if name = flag then some value else none
  | assigned name value => if name = flag then some value else none

def set (flag value : String) : Part → Part
  | other token => other token
  | bare name old => bare name (if name = flag then value else old)
  | assigned name old => assigned name (if name = flag then value else old)

end Part

variable {parts : List Part} {part : Part}

def assemble (parts : List Part) : List String := parts.flatMap Part.tokens

def Valid (parts : List Part) : Prop := ∀ part ∈ parts, part.Valid

/-! ### Cutting a command line into parts -/

theorem ValuesFollow.tail {rest : List String} (hfollow : ValuesFollow (token :: rest)) :
    ValuesFollow rest := by
  cases rest with
  | nil => trivial
  | cons => exact hfollow.2

theorem exists_parts_cons (hbare : token ∉ engineFlags) (hvalid : Valid parts) :
    ∃ more, Valid more ∧ token :: assemble parts = assemble more := by
  by_cases hassigned : ∃ flag ∈ engineFlags, ∃ value, assignedValue flag token = some value
  · obtain ⟨flag, hflag, value, hvalue⟩ := hassigned
    refine ⟨.assigned flag value :: parts, forall_mem_cons.mpr ⟨hflag, hvalid⟩, ?_⟩
    rw [eq_assigned hvalue]
    rfl
  · refine ⟨.other token :: parts, forall_mem_cons.mpr ⟨⟨hbare, ?_⟩, hvalid⟩, rfl⟩
    intro flag hflag
    by_contra hsome
    obtain ⟨value, hvalue⟩ := Option.ne_none_iff_exists'.mp hsome
    exact hassigned ⟨flag, hflag, value, hvalue⟩

theorem exists_parts : ∀ argv : List String, ValuesFollow argv →
    ∃ parts, Valid parts ∧ argv = assemble parts
  | [], _ => ⟨[], fun _ hpart => absurd hpart not_mem_nil, rfl⟩
  | [_], hfollow => exists_parts_cons hfollow fun _ hpart => absurd hpart not_mem_nil
  | token :: next :: rest, hfollow => by
    by_cases hflag : token ∈ engineFlags
    · obtain ⟨parts, hvalid, hrest⟩ := exists_parts rest hfollow.2.tail
      refine ⟨.bare token next :: parts, ?_, by rw [hrest]; rfl⟩
      exact forall_mem_cons.mpr ⟨⟨hflag, hfollow.1 hflag⟩, hvalid⟩
    · obtain ⟨parts, hvalid, hrest⟩ := exists_parts (next :: rest) hfollow.2
      rw [hrest]
      exact exists_parts_cons hflag hvalid

/-! ### One flag's pieces -/

variable {name : String}

theorem no_sign (hflag : flag ∈ engineFlags) : '=' ∉ flag.toList := by
  revert flag
  decide

theorem assigned_ne_of_mem (hflag : flag ∈ engineFlags) (value : String) :
    name ++ "=" ++ value ≠ flag := by
  intro heq
  apply no_sign hflag
  rw [← heq]
  simp

theorem takeWhile_sign {name : List Char} (hname : '=' ∉ name) (rest : List Char) :
    (name ++ '=' :: rest).takeWhile (· ≠ '=') = name := by
  have hpos : ∀ char ∈ name, decide (char ≠ '=') = true :=
    fun char hchar => decide_eq_true fun heq => hname (heq ▸ hchar)
  rw [takeWhile_append_of_pos hpos]
  simp

theorem assignedValue_eq_none_of_mem (hname : name ∈ engineFlags) :
    assignedValue flag name = none := by
  by_contra hsome
  obtain ⟨value, hvalue⟩ := Option.ne_none_iff_exists'.mp hsome
  exact assigned_ne_of_mem hname value (eq_assigned hvalue).symm

theorem assignedValue_of_ne (hname : name ∈ engineFlags) (hflag : flag ∈ engineFlags)
    (hne : name ≠ flag) (value : String) : assignedValue flag (name ++ "=" ++ value) = none := by
  by_contra hsome
  obtain ⟨other, hother⟩ := Option.ne_none_iff_exists'.mp hsome
  have hchars : name.toList ++ '=' :: value.toList = flag.toList ++ '=' :: other.toList := by
    have hlists := congrArg String.toList (eq_assigned hother)
    simpa using hlists
  have hnames := congrArg (List.takeWhile (· ≠ '=')) hchars
  rw [takeWhile_sign (no_sign hname), takeWhile_sign (no_sign hflag)] at hnames
  exact hne (String.toList_injective hnames)

theorem proper_of_strict {line : List Piece} (hstrict : Strict flag line) : Proper flag line := by
  induction line with
  | nil => trivial
  | cons piece rest ih =>
    have hrest := ih fun token htoken => hstrict token (mem_cons_of_mem _ htoken)
    cases piece with
    | other token =>
      obtain ⟨hassigned, hne⟩ := hstrict token mem_cons_self
      exact ⟨hassigned, fun hflag => absurd hflag hne, hrest⟩
    | bare | assigned => exact hrest

section

variable (hflag : flag ∈ engineFlags) (hvalid : Valid parts)

theorem Part.render_pieces (part : Part) : render flag (part.pieces flag) = part.tokens := by
  cases part with
  | other => rfl
  | bare name | assigned name =>
    by_cases hname : name = flag
    · simp [Part.pieces, Part.tokens, render, Piece.tokens, hname]
    · simp [Part.pieces, Part.tokens, render, Piece.tokens, hname]

theorem Part.values_pieces (part : Part) :
    (part.pieces flag).filterMap Piece.value? = (part.value? flag).toList := by
  cases part with
  | other => rfl
  | bare name | assigned name =>
    by_cases hname : name = flag <;> simp [Part.pieces, Part.value?, hname, Piece.value?]

theorem Part.set_pieces (part : Part) (value : String) :
    (part.pieces flag).filterMap (Piece.set (some value)) = (part.set flag value).pieces flag := by
  cases part with
  | other => rfl
  | bare name | assigned name =>
    by_cases hname : name = flag <;> simp [Part.pieces, Part.set, hname, Piece.set]

include hflag in
theorem Part.Valid.strict (hpart : part.Valid) : Strict flag (part.pieces flag) := by
  intro token htoken
  cases part with
  | other =>
    obtain rfl := Piece.other.inj (mem_singleton.mp htoken)
    exact ⟨hpart.2 flag hflag, fun heq => hpart.1 (heq ▸ hflag)⟩
  | bare name =>
    by_cases hname : name = flag
    · simp [Part.pieces, hname] at htoken
    · rw [Part.pieces, if_neg hname] at htoken
      simp only [mem_cons, Piece.other.injEq, not_mem_nil, or_false] at htoken
      rcases htoken with rfl | rfl
      · exact ⟨assignedValue_eq_none_of_mem hpart.1, hname⟩
      · exact ⟨hpart.2.2 flag hflag, fun heq => hpart.2.1 (heq ▸ hflag)⟩
  | assigned name value =>
    by_cases hname : name = flag
    · simp [Part.pieces, hname] at htoken
    · rw [Part.pieces, if_neg hname] at htoken
      obtain rfl := Piece.other.inj (mem_singleton.mp htoken)
      exact ⟨assignedValue_of_ne hpart hflag hname value, assigned_ne_of_mem hflag value⟩

include hflag hvalid

theorem pieces_assemble :
    pieces flag (assemble parts) = parts.flatMap (Part.pieces flag) := by
  have hrender : render flag (parts.flatMap (Part.pieces flag)) = assemble parts := by
    unfold render assemble
    rw [flatMap_assoc]
    exact flatMap_congr fun part _ => part.render_pieces
  have hstrict : Strict flag (parts.flatMap (Part.pieces flag)) := by
    intro token htoken
    obtain ⟨part, hpart, htoken⟩ := mem_flatMap.mp htoken
    exact (hvalid part hpart).strict hflag token htoken
  rw [← hrender, pieces_render (proper_of_strict hstrict)]

theorem flagValues_assemble :
    flagValues flag (assemble parts) = parts.filterMap (Part.value? flag) := by
  unfold flagValues
  rw [pieces_assemble hflag hvalid, filterMap_flatMap, filterMap_eq_flatMap_toList]
  exact flatMap_congr fun part _ => part.values_pieces

end

/-! ### Writing a flag -/

def write (flag value : String) (parts : List Part) : List Part :=
  if parts.filterMap (Part.value? flag) = [] then parts ++ [.bare flag value]
  else parts.map (Part.set flag value)

theorem Part.Valid.set (hpart : part.Valid) (flag : String) (hvalue : IsValue value) :
    (part.set flag value).Valid := by
  cases part with
  | other | assigned => exact hpart
  | bare =>
    refine ⟨hpart.1, ?_⟩
    split
    · exact hvalue
    · exact hpart.2

section

variable {other : String}

theorem Part.value?_set_self (part : Part) (value : String) :
    (part.set flag value).value? flag = (part.value? flag).map fun _ => value := by
  cases part with
  | other => rfl
  | bare name | assigned name =>
    by_cases hname : name = flag <;> simp [Part.set, Part.value?, hname]

theorem Part.value?_set_of_ne (hne : other ≠ flag) (part : Part) (value : String) :
    (part.set flag value).value? other = part.value? other := by
  cases part with
  | other => rfl
  | bare name | assigned name =>
    by_cases hname : name = other <;> simp [Part.set, Part.value?, hname, hne]

variable (hflag : flag ∈ engineFlags) (hvalid : Valid parts) (hvalue : IsValue value)

include hflag hvalid hvalue

theorem valid_write : Valid (write flag value parts) := by
  unfold write
  split
  · intro part hpart
    rcases mem_append.mp hpart with hold | hnew
    · exact hvalid part hold
    · rw [mem_singleton.mp hnew]
      exact ⟨hflag, hvalue⟩
  · intro part hpart
    obtain ⟨old, hold, rfl⟩ := mem_map.mp hpart
    exact (hvalid old hold).set flag hvalue

theorem write_assemble :
    argvWithFlag (assemble parts) flag (some value) = assemble (write flag value parts) := by
  have hwritten := valid_write hflag hvalid hvalue
  have hvalues := flagValues_assemble hflag hvalid
  unfold write at hwritten ⊢
  split
  next habsent =>
    rw [argvWithFlag_absent (hvalues.trans habsent)]
    unfold assemble
    rw [flatMap_append]
    rfl
  next hpresent =>
    rw [if_neg hpresent] at hwritten
    apply @pieces_injective flag
    rw [pieces_replace value (hvalues ▸ hpresent), pieces_assemble hflag hvalid,
      pieces_assemble hflag hwritten, filterMap_flatMap, flatMap_map]
    exact flatMap_congr fun part _ => part.set_pieces value

theorem argvFlag_write_self : argvFlag flag (assemble (write flag value parts)) = some value := by
  rw [argvFlag_eq, flagValues_assemble hflag (valid_write hflag hvalid hvalue)]
  unfold write
  split
  next habsent =>
    rw [filterMap_append, habsent]
    simp [Part.value?]
  next hpresent =>
    have hvalues : (parts.map (Part.set flag value)).filterMap (Part.value? flag) =
        (parts.filterMap (Part.value? flag)).map fun _ => value := by
      rw [filterMap_map, map_filterMap]
      exact filterMap_congr fun part _ => part.value?_set_self value
    obtain ⟨first, rest, hcons⟩ := exists_cons_of_ne_nil hpresent
    rw [hvalues, hcons]
    rfl

theorem argvFlag_write_of_ne (hother : other ∈ engineFlags) (hne : other ≠ flag) :
    argvFlag other (assemble (write flag value parts)) = argvFlag other (assemble parts) := by
  rw [argvFlag_eq, argvFlag_eq, flagValues_assemble hother (valid_write hflag hvalid hvalue),
    flagValues_assemble hother hvalid]
  unfold write
  split
  · simp [Part.value?, hne.symm]
  · rw [filterMap_map]
    congr 1
    exact filterMap_congr fun part _ => part.value?_set_of_ne hne value

end

/-! ### The other tokens -/

def Part.kept (flags : List String) : Part → List String
  | .other token => [token]
  | .bare flag value => if flag ∈ flags then [] else [flag, value]
  | .assigned flag value => if flag ∈ flags then [] else [flag ++ "=" ++ value]

section

variable {flags : List String} (hflags : ∀ flag ∈ flags, flag ∈ engineFlags)

theorem keptTokens_cons (hbare : token ∉ flags)
    (hassigned : ∀ flag ∈ flags, assignedValue flag token = none) (rest : List String) :
    keptTokens flags (token :: rest) = token :: keptTokens flags rest := by
  have hany : flags.any (fun flag => (assignedValue flag token).isSome) = false := by
    simpa using hassigned
  cases rest with
  | nil => simp [keptTokens, hbare, hany]
  | cons => rw [keptTokens, if_neg hbare, hany]; rfl

include hflags

theorem keptTokens_assigned (hmem : flag ∈ flags) (value : String) (rest : List String) :
    keptTokens flags ((flag ++ "=" ++ value) :: rest) = keptTokens flags rest := by
  have hbare : flag ++ "=" ++ value ∉ flags :=
    fun hname => assigned_ne_of_mem (hflags _ hname) value rfl
  have hany : flags.any (fun name => (assignedValue name (flag ++ "=" ++ value)).isSome) = true :=
    any_eq_true.mpr ⟨flag, hmem, by rw [assignedValue_assigned]; rfl⟩
  cases rest with
  | nil => exact if_pos (Or.inr hany)
  | cons => rw [keptTokens, if_neg hbare, if_pos hany]

theorem Part.Valid.keptTokens (hpart : part.Valid) (rest : List String) :
    keptTokens flags (part.tokens ++ rest) = part.kept flags ++ keptTokens flags rest := by
  have hplain : ∀ token, IsValue token → ∀ rest,
      BrokerParrot.keptTokens flags (token :: rest) =
        token :: BrokerParrot.keptTokens flags rest :=
    fun token htoken => keptTokens_cons (fun hmem => htoken.1 (hflags token hmem))
      fun flag hmem => htoken.2 flag (hflags flag hmem)
  cases part with
  | other token => exact hplain token hpart rest
  | bare flag value =>
    by_cases hmem : flag ∈ flags
    · have hskip : BrokerParrot.keptTokens flags (flag :: value :: rest) =
          BrokerParrot.keptTokens flags rest := by
        rw [BrokerParrot.keptTokens, if_pos hmem]
      rwa [Part.kept, if_pos hmem]
    · rw [Part.kept, if_neg hmem]
      refine (keptTokens_cons hmem (fun _ _ => assignedValue_eq_none_of_mem hpart.1) _).trans ?_
      exact congrArg (flag :: ·) (hplain value hpart.2 rest)
  | assigned flag value =>
    by_cases hmem : flag ∈ flags
    · rw [Part.kept, if_pos hmem]
      exact keptTokens_assigned hflags hmem value rest
    · rw [Part.kept, if_neg hmem]
      refine keptTokens_cons (fun hname => ?_) (fun other hother => ?_) rest
      · exact assigned_ne_of_mem (hflags _ hname) value rfl
      · have hne : flag ≠ other := fun heq => hmem (heq ▸ hother)
        exact assignedValue_of_ne hpart (hflags other hother) hne value

theorem keptTokens_assemble (hvalid : Valid parts) :
    keptTokens flags (assemble parts) = parts.flatMap (Part.kept flags) := by
  induction parts with
  | nil => rfl
  | cons part rest ih =>
    obtain ⟨hpart, hrest⟩ := forall_mem_cons.mp hvalid
    exact (hpart.keptTokens hflags _).trans (congrArg (part.kept flags ++ ·) (ih hrest))

theorem keptTokens_write (hmem : flag ∈ flags) (hvalid : Valid parts) (hvalue : IsValue value) :
    keptTokens flags (assemble (write flag value parts)) = keptTokens flags (assemble parts) := by
  rw [keptTokens_assemble hflags (valid_write (hflags flag hmem) hvalid hvalue),
    keptTokens_assemble hflags hvalid]
  unfold write
  split
  · simp [Part.kept, hmem]
  · rw [flatMap_map]
    refine flatMap_congr fun part _ => ?_
    cases part with
    | other => rfl
    | bare name | assigned name =>
      by_cases hname : name = flag <;> simp [Part.set, Part.kept, hname, hmem]

end

end ServerContext

end BrokerParrot
