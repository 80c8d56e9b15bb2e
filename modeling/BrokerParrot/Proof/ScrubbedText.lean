import BrokerParrot.Secrets

/-!
# No piece of a password survives

The password that is taken from the connection string ends with the real one. Each of its longer
pieces that is free of the mask is replaced by the mask somewhere in the loop, and whatever comes
after, the two patterns included, only masks.
-/

namespace BrokerParrot

open List

variable {text rest : PyStr} {p : ℕ → Bool}

namespace Secrets

def mask : ℕ := '*'.toNat

theorem stars_all : ∀ c ∈ stars, c = mask := by
  decide +kernel

theorem stars_ne_nil : stars ≠ [] := by
  decide +kernel

/-! ### The password of a connection string -/

theorem suffix_afterFirst {sep : PyStr} (hsep : sep ≠ []) (before after : PyStr) :
    ∃ found, afterFirst sep (before ++ (sep ++ after)) = some found ∧ after <:+ found := by
  induction before with
  | nil =>
    obtain ⟨c, rest, rfl⟩ := exists_cons_of_ne_nil hsep
    refine ⟨after, ?_, suffix_refl _⟩
    rw [nil_append, cons_append, afterFirst, if_pos ⟨after, rfl⟩]
    simp
  | cons c before ih =>
    rw [cons_append, afterFirst]
    split
    · next hhere =>
      -- The separator stands earlier, so more of the text follows it.
      refine ⟨_, rfl, ?_⟩
      have hwhole : after <:+ c :: (before ++ (sep ++ after)) :=
        ⟨c :: (before ++ sep), by simp⟩
      refine suffix_of_suffix_length_le hwhole (drop_suffix _ _) ?_
      simp only [length_drop, length_cons, length_append]
      omega
    · exact ih

theorem rdropWhile_append_of_all (hrest : ∀ c ∈ rest, p c = true) :
    (text ++ rest).rdropWhile p = text.rdropWhile p := by
  have hdrop : rest.reverse.dropWhile p = [] := by
    simpa [dropWhile_eq_nil_iff] using hrest
  simp only [List.rdropWhile, reverse_append, dropWhile_append, hdrop,
    isEmpty_nil, if_true]

def dsnOf (scheme user password rest : PyStr) : PyStr :=
  scheme ++ (PyStr.of "://" ++ (user ++ (PyStr.of ":" ++ (password ++ '@'.toNat :: rest))))

theorem suffix_passwordOf (lower : PyStr → PyStr) {scheme user password : PyStr}
    (hrest : '@'.toNat ∉ rest)
    (hplain : ¬ PyStr.of "password=" <:+: dsnOf scheme user password rest) :
    password <:+ passwordOf lower (dsnOf scheme user password rest) := by
  have hsep : PyStr.of "://" ≠ [] := by decide +kernel
  have hcolon : PyStr.of ":" ≠ [] := by decide +kernel
  obtain ⟨after, hafter, before, rfl⟩ := suffix_afterFirst hsep scheme
    (user ++ (PyStr.of ":" ++ (password ++ '@'.toNat :: rest)))
  rw [passwordOf, if_neg hplain, dsnOf, hafter]
  have hdrop : (before ++ (user ++ (PyStr.of ":" ++ (password ++ '@'.toNat :: rest)))).rdropWhile
      (fun c => decide (c ≠ '@'.toNat)) =
        (before ++ user) ++ (PyStr.of ":" ++ password) ++ ['@'.toNat] := by
    have hsplit : before ++ (user ++ (PyStr.of ":" ++ (password ++ '@'.toNat :: rest))) =
        (before ++ user ++ (PyStr.of ":" ++ password) ++ ['@'.toNat]) ++ rest := by simp
    rw [hsplit, rdropWhile_append_of_all fun c hc => decide_eq_true (ne_of_mem_of_not_mem hc hrest),
      rdropWhile_concat_neg _ _ _ (by simp)]
  obtain ⟨found, hfound, hsuffix⟩ := suffix_afterFirst hcolon (before ++ user) password
  dsimp only [Option.getD_none]
  rwa [if_pos (by simp), hdrop, dropLast_concat, hfound]

/-! ### What masks -/

theorem take_of_dropWhile {c : ℕ} (hdrop : text.dropWhile p = c :: rest) (count : ℕ) :
    text.take ((text.takeWhile p).length + 1 + count) =
      text.takeWhile p ++ c :: rest.take count := by
  have htext := takeWhile_append_dropWhile (p := p) (l := text)
  rw [hdrop] at htext
  generalize text.takeWhile p = first at htext ⊢
  rw [← htext, Nat.add_assoc, take_length_add_append, Nat.add_comm, take_succ_cons]

theorem masks_credentials {user password : PyStr} :
    Subst.Masks mask (user ++ 58 :: (password ++ [64])) (PyStr.of "***:***@") []
      [mask, mask, 58, mask, mask, mask, 64] := by
  refine ⟨by decide +kernel, nil_prefix, fun word hfree hword => ?_,
    fun word hfree hword => ?_⟩
  · simp only [suffix_cons_iff, suffix_nil] at hword
    rcases hword with rfl | rfl | rfl | rfl | rfl | rfl | rfl | rfl
    all_goals try exact absurd hfree (by decide)
    · exact ⟨user ++ 58 :: password, by simp⟩
    · exact nil_suffix
  · by_cases hne : word = []
    · rw [hne]
      exact nil_infix
    have hpieces := Subst.infix_of_masked_append [mask, mask] (by simp) hfree hne hword
    rcases Subst.infix_of_free [58] hfree hpieces with hcolon | hmore
    · exact hcolon.trans ⟨user, password ++ [64], by simp⟩
    · have hat := Subst.infix_of_masked_append [mask, mask] (by simp) hfree hne hmore
      exact hat.trans ⟨user ++ 58 :: password, [], by simp⟩

theorem masks_dsnCredentials (isWord : ℕ → Bool) : (dsnCredentials isWord).Masks mask := by
  intro previous text taken new hmatch
  unfold dsnCredentials at hmatch
  dsimp only at hmatch
  split at hmatch
  · cases hmatch
  split at hmatch
  · next rest huser =>
    split at hmatch
    · next more hpassword =>
      split at hmatch
      · cases hmatch
        have hpart : rest.take ((rest.takeWhile _).length + 1) = rest.takeWhile _ ++ [64] :=
          take_of_dropWhile hpassword 0
        refine ⟨by omega, [], [mask, mask, 58, mask, mask, mask, 64], ?_⟩
        rw [take_of_dropWhile huser, hpart]
        exact masks_credentials
      · cases hmatch
    · cases hmatch
  · cases hmatch

theorem masks_passwordPair : passwordPair.Masks mask := by
  intro previous text taken new hmatch
  obtain ⟨tail, htail⟩ := Subst.masks_of_all stars_all stars_ne_nil (text.take taken)
  unfold passwordPair at hmatch
  dsimp only at hmatch
  split at hmatch
  · split at hmatch
    · split at hmatch
      · cases hmatch
      · cases hmatch
        refine ⟨by omega, _, tail, by rw [htail.split]; rfl, ?_, htail.tail_suffix,
          htail.tail_infix⟩
        exact take_prefix_take_left (by omega)
    · cases hmatch
  · cases hmatch

variable {secret : PyStr}

theorem masks_mask (hne : secret ≠ []) :
    (Subst.literal secret stars).Masks mask :=
  Subst.masks_literal stars_all stars_ne_nil hne

/-! ### The loop -/

variable {word : PyStr}

theorem mem_fragments (hword : word <:+: secret) (hlong : minSecretFragment ≤ word.length)
    (hshorter : word.length < secret.length) : word ∈ fragments secret := by
  obtain ⟨before, after, rfl⟩ := hword
  simp only [length_append] at hshorter
  refine mem_flatMap.mpr ⟨word.length, ?_, mem_map.mpr ⟨before.length, ?_, ?_⟩⟩
  · simp only [mem_reverse, mem_range'_1, length_append]
    omega
  · simp only [mem_range, length_append]
    omega
  · simp

theorem length_of_mem_fragments (hword : word ∈ fragments secret) : word ≠ [] := by
  obtain ⟨size, hsize, hword⟩ := mem_flatMap.mp hword
  obtain ⟨start, hstart, rfl⟩ := mem_map.mp hword
  simp only [mem_reverse, mem_range'_1] at hsize
  rw [mem_range] at hstart
  unfold minSecretFragment at hsize
  refine ne_nil_of_length_pos ?_
  simp only [length_take, length_drop]
  omega

def maskFragment (out fragment : PyStr) : PyStr :=
  if fragment <:+: out then Subst.replaceAll fragment stars out else out

theorem free_infix_maskFragment {out fragment : PyStr} (hne : fragment ≠ []) (hfree : mask ∉ word)
    (hword : word <:+: maskFragment out fragment) : word <:+: out := by
  unfold maskFragment at hword
  split at hword
  · exact Subst.free_infix_sub (masks_mask hne) hfree hword
  · exact hword

theorem free_infix_foldl {pieces : List PyStr} (hpieces : ∀ piece ∈ pieces, piece ≠ [])
    {out : PyStr} (hfree : mask ∉ word) (hword : word <:+: pieces.foldl maskFragment out) :
    word <:+: out ∧ word ∉ pieces := by
  induction pieces generalizing out with
  | nil => exact ⟨hword, not_mem_nil⟩
  | cons piece rest ih =>
    obtain ⟨hne, hrest⟩ := forall_mem_cons.mp hpieces
    obtain ⟨hmasked, hnotin⟩ := ih hrest hword
    refine ⟨free_infix_maskFragment hne hfree hmasked, fun hmem => ?_⟩
    rcases mem_cons.mp hmem with rfl | hlater
    · have hout := free_infix_maskFragment hne hfree hmasked
      rw [maskFragment, if_pos hout] at hmasked
      exact Subst.not_infix_replaceAll stars_all stars_ne_nil hne hfree out hmasked
    · exact hnotin hlater

theorem not_infix_scrubPassword (hword : word <:+: secret) (hlong : minSecretFragment ≤ word.length)
    (hfree : mask ∉ word) (out : PyStr) : ¬ word <:+: scrubPassword secret out := by
  have hsecret : minSecretFragment ≤ secret.length := hlong.trans hword.length_le
  have hne : secret ≠ [] := ne_nil_of_length_pos (by unfold minSecretFragment at *; omega)
  intro hleft
  rw [scrubPassword, if_neg hne, if_pos hsecret] at hleft
  obtain ⟨hfirst, hnotin⟩ :=
    free_infix_foldl (fun piece hpiece => length_of_mem_fragments hpiece) hfree hleft
  rcases hword.length_le.lt_or_eq with hshorter | hequal
  · exact hnotin (mem_fragments hword hlong hshorter)
  · obtain rfl := hword.eq_of_length hequal
    exact Subst.not_infix_replaceAll stars_all stars_ne_nil hne hfree out hfirst

/-- **Secrets do not leak.** Whatever the text, no piece of six or more characters of the password
of a connection string is left in the scrubbed text, unless the mask's character is in it. -/
theorem scrubbed_text_hides_password (env : ScrubEnv) (text scheme user password rest : PyStr)
    (hrest : '@'.toNat ∉ rest)
    (hplain : ¬ PyStr.of "password=" <:+: dsnOf scheme user password rest)
    (word : PyStr) (hword : word <:+: password) (hlong : 6 ≤ word.length)
    (hfree : '*'.toNat ∉ word) :
    ¬ word <:+: scrubSecrets env text (some (dsnOf scheme user password rest)) := by
  intro hleft
  have hpairs := Subst.free_infix_sub masks_passwordPair hfree hleft
  have hcredentials := Subst.free_infix_sub (masks_dsnCredentials env.isWord) hfree hpairs
  dsimp only at hcredentials
  rw [if_neg (by simp [dsnOf])] at hcredentials
  have hsecret := hword.trans (suffix_passwordOf env.lower hrest hplain).isInfix
  exact not_infix_scrubPassword hsecret hlong hfree _ hcredentials

/-- The driver quotes what it took for the host. -/
theorem scrubbed_text_hides_password_fragment :
    ¬ PyStr.of "ssSECRET" <:+: scrubSecrets ⟨id, id, fun _ => false⟩
      (PyStr.of "failed to resolve host 'ssSECRET@127.0.0.1'")
      (some (dsnOf (PyStr.of "postgresql") (PyStr.of "qw") (PyStr.of "p@ssSECRET")
        (PyStr.of "host/db"))) :=
  scrubbed_text_hides_password _ _ _ _ _ _ (by decide +kernel) (by decide +kernel) _
    (by decide +kernel) (by decide +kernel) (by decide +kernel)

end Secrets

end BrokerParrot
