import TibServer.DamageList

/-!
The sum of a damage list. It is the damage that was asked for where every value finds its place at
least once and whole numbers are exact in single precision, and nowhere else.
-/

namespace TibServer.DamageList

open FloatRounding

variable {sum i med : ℕ}

/-! ### The test on exact numbers -/

theorem float_exact {n : ℕ} (h : n ≤ 2 ^ 24) : float n = n :=
  float_of_fits (fits_natCast h (by omega))

theorem ratio_exact (hsum : sum + i ≤ 2 ^ 24) (hmed : med ≤ 2 ^ 24) :
    float (float sum + float i) / float med = (sum + i : ℕ) / med := by
  rw [float_exact (by omega : sum ≤ 2 ^ 24), float_exact (by omega : i ≤ 2 ^ 24), ← Nat.cast_add,
    float_exact hsum, float_exact hmed]

theorem float_le_one {x : ℚ} (h : 0 ≤ x) (hle : x ≤ 1) : float x ≤ 1 := by
  rw [← float_one]
  exact float_mono h hle

theorem one_le_float {x : ℚ} (h : 1 ≤ x) : 1 ≤ float x := by
  rw [← float_one]
  exact float_mono zero_le_one h

theorem float_error {x : ℚ} (h : 0 ≤ x) (hle : x ≤ 1) : |float x - x| ≤ 2 ^ (-24 : ℤ) / 2 := by
  unfold float
  rw [round_of_nonneg h]
  exact roundPos_error (by omega) h (by norm_num; linarith)

theorem float_le_two {x : ℚ} (h : 0 ≤ x) (hle : x ≤ 2) : float x ≤ 2 := by
  have hfits : Fits 24 ((2 : ℕ) : ℚ) := fits_natCast (by decide) (by omega)
  rw [Nat.cast_ofNat] at hfits
  rw [← float_of_fits hfits]
  exact float_mono h hle

theorem float_error_two {x : ℚ} (h : 0 ≤ x) (hle : x ≤ 2) : |float x - x| ≤ 2 ^ (-24 : ℤ) := by
  have hhalf : (2 : ℚ) ^ (-23 : ℤ) / 2 = 2 ^ (-24 : ℤ) := by norm_num
  unfold float
  rw [round_of_nonneg h, ← hhalf]
  exact roundPos_error (by omega) h (by norm_num; linarith)

/-- What is rounded from no less than `2 ^ -24` is a multiple of `2 ^ -47`. -/
theorem distance_exact {x : ℚ} (hlow : 2 ^ (-24 : ℤ) ≤ x) (hle : x ≤ 1) :
    |double (1 - float x)| = 1 - float x := by
  have hpos : (0 : ℚ) < 2 ^ (-24 : ℤ) := zpow_pos (by norm_num) _
  have hone := float_le_one (hpos.le.trans hlow) hle
  have hfits : Fits 24 (float x) := float_fits (hpos.le.trans hlow)
  have hge : 2 ^ (-24 : ℤ) ≤ float x := by
    have hsmall : Fits 24 (2 ^ (-24 : ℤ)) := ⟨1, -24, by decide, by simp⟩
    rw [← float_of_fits hsmall]
    exact float_mono hpos.le hlow
  obtain ⟨n, hn⟩ := hfits.multiple (k := -47) (by norm_num at hge ⊢; linarith)
  have hle' : n ≤ 2 ^ 47 := by
    rw [hn] at hone
    have hpow : (2 : ℚ) ^ (-47 : ℤ) * 2 ^ 47 = 1 := by norm_num
    have hscaled : (n : ℚ) ≤ 2 ^ 47 := by
      calc (n : ℚ) = n * 2 ^ (-47 : ℤ) * 2 ^ 47 := by rw [mul_assoc, hpow, mul_one]
        _ ≤ 1 * 2 ^ 47 := mul_le_mul_of_nonneg_right hone (by positivity)
        _ = 2 ^ 47 := one_mul _
    exact_mod_cast hscaled
  have hdistance : Fits 53 (1 - float x) := by
    refine ⟨2 ^ 47 - n, -47, ?_, ?_⟩
    · calc 2 ^ 47 - n ≤ 2 ^ 47 := Nat.sub_le _ _
        _ < 2 ^ 53 := by decide
    · rw [hn, Nat.cast_sub hle']
      norm_num
      ring
  rw [distance_eq, abs_of_nonneg (by linarith), roundPos_of_fits (by omega) hdistance]

/-- An entry that fits before the target is taken. -/
theorem nearer_of_le (hsum : 0 < sum) (hi : 0 < i) (hle : sum + i ≤ med) (hmed : med ≤ 2 ^ 24) :
    Nearer sum i med := by
  have hmed' : (0 : ℚ) < med := by exact_mod_cast (by omega : 0 < med)
  have hmed'' : (med : ℚ) ≤ 2 ^ 24 := by exact_mod_cast hmed
  have hratio : ((sum + i : ℕ) : ℚ) / med ≤ 1 := (div_le_one hmed').mpr (by exact_mod_cast hle)
  have hlow : 2 ^ (-24 : ℤ) ≤ (sum : ℚ) / med := by
    rw [le_div_iff₀ hmed']
    have hone : (1 : ℚ) ≤ sum := by exact_mod_cast hsum
    norm_num
    linarith
  have hstep : (sum : ℚ) / med + i / med = ((sum + i : ℕ) : ℚ) / med := by
    push_cast
    ring
  have hi' : (0 : ℚ) < i / med := div_pos (by exact_mod_cast hi) hmed'
  have hlt : float ((sum : ℚ) / med) < float (((sum + i : ℕ) : ℚ) / med) := by
    rcases hmed.lt_or_eq with hsmall | rfl
    · -- an entry is more than the two errors together
      have herror := float_error (x := (sum : ℚ) / med) (by positivity) (by linarith)
      have herror' := float_error (x := ((sum + i : ℕ) : ℚ) / med) (by positivity) hratio
      have hentry : 2 ^ (-24 : ℤ) < (i : ℚ) / med := by
        rw [lt_div_iff₀ hmed']
        calc (2 : ℚ) ^ (-24 : ℤ) * med < 2 ^ (-24 : ℤ) * 2 ^ 24 :=
              mul_lt_mul_of_pos_left (by exact_mod_cast hsmall) (by positivity)
          _ = 1 := by norm_num
          _ ≤ i := by exact_mod_cast hi
      have hlow := (abs_le.mp herror).2
      have hhigh := (abs_le.mp herror').1
      linarith
    · -- the numbers are exact
      have hexact : ∀ n : ℕ, n ≤ 2 ^ 24 → float ((n : ℚ) / (2 ^ 24 : ℕ)) = n / (2 ^ 24 : ℕ) := by
        intro n hn
        refine float_of_fits ?_
        have hfits := fits_zpow (p := 24) n (-24) hn (by omega)
        have hdiv : (n : ℚ) * 2 ^ (-24 : ℤ) = n / (2 ^ 24 : ℕ) := by
          rw [zpow_neg, div_eq_mul_inv]
          norm_num
        rwa [hdiv] at hfits
      rw [hexact sum (by omega), hexact (sum + i) hle]
      linarith
  unfold Nearer x1 x2
  rw [ratio_exact (by omega) hmed, float_exact (by omega : sum ≤ 2 ^ 24), float_exact hmed,
    distance_exact (by linarith) hratio, distance_exact hlow (by linarith)]
  linarith

/-- An entry that is taken does not lead farther over the target than the sum was before it. -/
theorem Nearer.le (h : Nearer sum i med) (hsum : sum + i ≤ 2 ^ 24) (hmed : med ≤ 2 ^ 24) :
    2 * sum + i ≤ 2 * med := by
  obtain ⟨hi, hlt⟩ := h.lt
  by_contra hfar
  have hmed' : (0 : ℚ) < med := by exact_mod_cast (by omega : 0 < med)
  have hover : (1 : ℚ) ≤ ((sum + i : ℕ) : ℚ) / med :=
    (one_le_div hmed').mpr (by exact_mod_cast (by omega : med ≤ sum + i))
  have hunder : (sum : ℚ) / med ≤ 1 := (div_le_one hmed').mpr (by exact_mod_cast hlt.le)
  have hunder' : float ((sum : ℚ) / med) ≤ 1 := float_le_one (by positivity) hunder
  refine absurd h (not_lt.mpr ?_)
  unfold x1 x2
  rw [ratio_exact hsum hmed, float_exact (by omega : sum ≤ 2 ^ 24), float_exact hmed]
  have hover' := one_le_float hover
  rw [distance_eq, distance_eq, abs_of_nonneg (by linarith), abs_sub_comm,
    abs_of_nonneg (by linarith)]
  refine roundPos_mono (by omega) (by linarith) ?_
  rcases le_or_gt 2 (((sum + i : ℕ) : ℚ) / med) with htwo | htwo
  · have hfits : Fits 24 ((2 : ℕ) : ℚ) := fits_natCast (by decide) (by omega)
    have hge := float_mono hfits.nonneg (by exact_mod_cast htwo)
    rw [float_of_fits hfits] at hge
    have hnonneg : 0 ≤ float ((sum : ℚ) / med) := (float_fits (by positivity)).nonneg
    push_cast at hge ⊢
    linarith
  · obtain ⟨n, hn⟩ := (float_fits (zero_le_one.trans hover)).multiple (k := -23) (by
      norm_num at hover' ⊢
      linarith)
    have herror := float_error_two (zero_le_one.trans hover) htwo.le
    have hle : n ≤ 2 ^ 24 := by
      have hbelow := float_le_two (zero_le_one.trans hover) htwo.le
      have hpow : (2 : ℚ) ^ (-23 : ℤ) * 2 ^ 23 = 1 := by norm_num
      have hscaled : (n : ℚ) ≤ 2 ^ 24 := by
        calc (n : ℚ) = n * 2 ^ (-23 : ℤ) * 2 ^ 23 := by rw [mul_assoc, hpow, mul_one]
          _ ≤ 2 * 2 ^ 23 := mul_le_mul_of_nonneg_right (hn ▸ hbelow) (by positivity)
          _ = 2 ^ 24 := by norm_num
      exact_mod_cast hscaled
    -- the other distance, from the other side, is a number of 24 digits too
    have hfits : Fits 24 (2 - float (((sum + i : ℕ) : ℚ) / med)) := by
      have hother := fits_zpow (2 ^ 24 - n) (-23) (Nat.sub_le (2 ^ 24) n) (by omega)
      have hsame : ((2 ^ 24 - n : ℕ) : ℚ) * 2 ^ (-23 : ℤ) = 2 - n * 2 ^ (-23 : ℤ) := by
        rw [Nat.cast_sub hle]
        norm_num
        ring
      rwa [hsame, ← hn] at hother
    have hgap : 2 ^ (-24 : ℤ) ≤ (sum : ℚ) / med + ((sum + i : ℕ) : ℚ) / med - 2 := by
      have hsame : (sum : ℚ) / med + ((sum + i : ℕ) : ℚ) / med - 2 =
          ((2 * sum + i : ℕ) - 2 * med) / med := by
        push_cast
        field_simp
        ring
      have hone : (1 : ℚ) ≤ (2 * sum + i : ℕ) - 2 * med := by
        have hfar' : ((2 * med + 1 : ℕ) : ℚ) ≤ (2 * sum + i : ℕ) := by exact_mod_cast not_le.mp hfar
        push_cast at hfar' ⊢
        linarith
      rw [hsame, le_div_iff₀ hmed']
      calc (2 : ℚ) ^ (-24 : ℤ) * med ≤ 2 ^ (-24 : ℤ) * 2 ^ 24 :=
            mul_le_mul_of_nonneg_left (by exact_mod_cast hmed) (by positivity)
        _ = 1 := by norm_num
        _ ≤ _ := hone
    have hlow := (abs_le.mp herror).1
    have hround := float_mono hfits.nonneg (by linarith :
      2 - float (((sum + i : ℕ) : ℚ) / med) ≤ (sum : ℚ) / med)
    rw [float_of_fits hfits] at hround
    linarith

/-! ### The test on large numbers -/

/-- From `2 ^ 25` on one more is lost. -/
theorem float_add_one_large {v : ℚ} (hfits : Fits 24 v) (hlarge : 2 ^ 25 ≤ v) :
    float (v + 1) = v := by
  have hpos : 0 ≤ v + 1 := by linarith [hfits.nonneg]
  have hge : v ≤ float (v + 1) := by
    have hmono := float_mono hfits.nonneg (by linarith : v ≤ v + 1)
    rwa [float_of_fits hfits] at hmono
  have hnear : |float (v + 1) - (v + 1)| ≤ 1 := by
    have hnearest := roundPos_nearest (by omega : 0 < 24) hpos hfits
    rw [abs_sub_comm v, add_sub_cancel_left, abs_one] at hnearest
    unfold float
    rwa [round_of_nonneg hpos]
  obtain ⟨a, ha⟩ := hfits.multiple (k := 2) (by norm_num at hlarge ⊢; linarith)
  obtain ⟨b, hb⟩ := (float_fits hpos).multiple (k := 2) (by norm_num at hlarge ⊢; linarith)
  have hlow := (abs_le.mp hnear).2
  rw [hb, ha] at hge hlow
  rw [hb, ha]
  have hge' : a ≤ b := by
    have hscaled : (a : ℚ) ≤ b := by
      norm_num at hge
      exact_mod_cast hge
    exact_mod_cast hscaled
  have hle' : b < a + 1 := by
    have hscaled : (b : ℚ) < a + 1 := by
      norm_num at hlow
      linarith
    exact_mod_cast hscaled
  rw [le_antisymm hge' (by omega)]

theorem Nearer.large (h : Nearer sum 1 med) (hsum : 2 ^ 24 ≤ sum) : sum % 4 = 2 := by
  have hchange : float (float sum + 1) ≠ float sum := by
    intro hsame
    unfold Nearer x1 x2 at h
    rw [Nat.cast_one, float_one, hsame] at h
    exact absurd h (lt_irrefl _)
  have hfits : Fits 24 (float sum) := float_fits sum.cast_nonneg
  have hsmall : float sum < 2 ^ 25 := by
    by_contra hlarge
    exact hchange (float_add_one_large hfits (not_lt.mp hlarge))
  have hsum' : sum < 2 ^ 25 := by
    by_contra hlarge
    have hpower : Fits 24 ((2 ^ 25 : ℕ) : ℚ) := ⟨1, 25, by decide, by norm_num⟩
    have hmono := float_mono hpower.nonneg (Nat.cast_le.mpr (not_lt.mp hlarge))
    rw [float_of_fits hpower] at hmono
    push_cast at hmono
    linarith
  rcases Nat.even_or_odd' sum with ⟨n, rfl | rfl⟩
  · have hexact : float (2 * n : ℕ) = (2 * n : ℕ) := by
      rw [float_natCast]
      exact roundPos_even hsum hsum'
    have hnext : float (float (2 * n : ℕ) + 1) = (2 * (n + n % 2) : ℕ) := by
      rw [hexact, ← Nat.cast_one, ← Nat.cast_add, float_natCast]
      exact roundPos_odd (by omega) (by omega)
    rw [hnext, hexact] at hchange
    have hne : 2 * (n + n % 2) ≠ 2 * n := fun hsame => hchange (by rw [hsame])
    omega
  · exfalso
    have hexact : float (2 * n + 1 : ℕ) = (2 * (n + n % 2) : ℕ) := by
      rw [float_natCast]
      exact roundPos_odd hsum hsum'
    rw [hexact] at hchange hsmall
    have hsmall' : 2 * (n + n % 2) < 2 ^ 25 := by exact_mod_cast hsmall
    refine hchange ?_
    rw [← Nat.cast_one, ← Nat.cast_add, float_natCast, roundPos_odd (by omega) (by omega)]
    congr 1
    omega

/-! ### The entries of one value -/

/-- What the loop over one value does: it takes an entry, and further ones while the test holds. -/
theorem addEntries_spec (hi : 0 < i) (med sum : ℕ) :
    ∃ m, (∀ j ≤ m, 0 < j → Nearer (sum + j * i) i med) ∧
      (addEntries i med sum = none ∧ 2 ^ 31 ≤ sum + (m + 1) * i ∨
        addEntries i med sum = some (List.replicate (m + 1) i, sum + (m + 1) * i) ∧
          ¬Nearer (sum + (m + 1) * i) i med) := by
  induction hn : med - sum using Nat.strong_induction_on generalizing sum with
  | _ n ih =>
      have hnone : ∀ j ≤ 0, 0 < j → Nearer (sum + j * i) i med := by
        intro j hle hpos
        omega
      rw [addEntries]
      dsimp only
      by_cases hover : 2 ^ 31 ≤ sum + i
      · rw [if_pos hover]
        exact ⟨0, hnone, .inl ⟨rfl, by omega⟩⟩
      · rw [if_neg hover]
        by_cases hnearer : Nearer (sum + i) i med
        · rw [if_pos hnearer]
          obtain ⟨m, htaken, hend⟩ := ih _ (by have := hnearer.lt.2; omega) (sum + i) rfl
          have hshift : ∀ j, sum + i + j * i = sum + (j + 1) * i := fun j => by ring
          refine ⟨m + 1, fun j hle hpos => ?_, ?_⟩
          · rcases Nat.exists_eq_succ_of_ne_zero hpos.ne' with ⟨j, rfl⟩
            rcases Nat.eq_zero_or_pos j with rfl | hpos'
            · rwa [Nat.succ_eq_add_one, Nat.zero_add, Nat.one_mul]
            · have hbefore := htaken j (by omega) hpos'
              rwa [hshift] at hbefore
          · rw [hshift] at hend
            rcases hend with ⟨hfail, hover'⟩ | ⟨hlist, hstop⟩
            · rw [hfail]
              exact .inl ⟨rfl, hover'⟩
            · rw [hlist]
              exact .inr ⟨rfl, hstop⟩
        · rw [if_neg hnearer]
          refine ⟨0, hnone, .inr ⟨?_, ?_⟩⟩
          · rw [Nat.zero_add, Nat.one_mul]
            rfl
          · rwa [Nat.zero_add, Nat.one_mul]

/-! ### The values one after the other -/

/-- What a damage list should be. -/
structure Deals (amount start : ℤ) (list : List ℕ) : Prop where
  falling : list.Pairwise fun a b => b ≤ a
  entries : ∀ value ∈ list, 1 ≤ value ∧ (value : ℤ) ≤ start
  total : (list.sum : ℤ) = amount

/-- Where there is one: every value can be taken once, the numbers are exact in single precision,
and no product runs over. -/
structure Dealt (amount start : ℤ) : Prop where
  pos : 1 ≤ start
  once : start * (start + 1) ≤ 2 * amount
  exact : amount ≤ 2 ^ 24
  product : start * amount < 2 ^ 31

variable {amount start : ℕ}

/-- How far the target of a value is from the amount. -/
theorem target_le (hstart : i + 1 ≤ start) (honce : start * (start + 1) ≤ 2 * amount) :
    2 * ((start + 1 - (i + 1)) * amount / start) + (i + 1) * (i + 1) ≤ 2 * amount + 1 := by
  obtain ⟨d, hd⟩ := Nat.exists_eq_add_of_le hstart
  have hdiv := Nat.div_mul_le_self ((start + 1 - (i + 1)) * amount) start
  rw [show start + 1 - (i + 1) = d + 1 by omega] at hdiv ⊢
  generalize (d + 1) * amount / start = t at hdiv ⊢
  zify at hd honce hdiv ⊢
  have hpos : (0 : ℤ) < start := by omega
  have hrest : ((start : ℤ) + 1) * i ≤ 2 * amount - 2 * t := by
    have honce' := mul_le_mul_of_nonneg_right honce (Int.natCast_nonneg i)
    have hsplit : (start : ℤ) * (2 * amount - 2 * t) =
        2 * amount * i + 2 * ((d + 1) * amount - t * start) := by
      rw [hd]
      ring
    refine le_of_mul_le_mul_left ?_ hpos
    rw [hsplit, ← mul_assoc]
    linarith
  have hmore : ((i : ℤ) + 2) * i ≤ (start + 1) * i :=
    mul_le_mul_of_nonneg_right (by omega) (Int.natCast_nonneg i)
  linarith

/-- Every value leaves enough for one entry of each value after it. -/
theorem entries_bound {m : ℕ} (hstart : i + 1 ≤ start)
    (honce : start * (start + 1) ≤ 2 * amount) (hexact : amount ≤ 2 ^ 24)
    (hsum : 2 * sum + (i + 1) * (i + 1 + 1) ≤ 2 * amount)
    (htaken : ∀ j ≤ m, 0 < j →
      Nearer (sum + j * (i + 1)) (i + 1) ((start + 1 - (i + 1)) * amount / start)) :
    2 * (sum + (m + 1) * (i + 1)) + i * (i + 1) ≤ 2 * amount := by
  rcases Nat.eq_zero_or_pos m with rfl | hpos
  · linarith
  · have htarget := target_le hstart honce
    have hlast := htaken m le_rfl hpos
    generalize (start + 1 - (i + 1)) * amount / start = t at htarget hlast
    have hlt := hlast.lt.2
    have hsquare : (i + 1) * (i + 1) = i * i + 2 * i + 1 := by ring
    have hnear := hlast.le (by omega) (by omega)
    have hlinear : (m + 1) * (i + 1) = m * (i + 1) + (i + 1) := by ring
    have hproduct : i * (i + 1) = i * i + i := by ring
    obtain ⟨e, he⟩ := Nat.even_mul_succ_self i
    omega

theorem addValues_deals (honce : start * (start + 1) ≤ 2 * amount) (hexact : amount ≤ 2 ^ 24)
    (hproduct : start * amount < 2 ^ 31) (hstart : i ≤ start)
    (hsum : 2 * sum + i * (i + 1) ≤ 2 * amount) (hlast : i = 0 → sum = amount) :
    ∃ list, addValues amount start i sum = some list ∧ list.Pairwise (fun a b => b ≤ a) ∧
      (∀ value ∈ list, 1 ≤ value ∧ value ≤ i) ∧ sum + list.sum = amount := by
  induction i generalizing sum with
  | zero => exact ⟨[], rfl, List.Pairwise.nil, fun v hv => absurd hv List.not_mem_nil, hlast rfl⟩
  | succ i ih =>
      obtain ⟨m, htaken, hend⟩ :=
        addEntries_spec (Nat.succ_pos i) ((start + 1 - (i + 1)) * amount / start) sum
      have hbound := entries_bound hstart honce hexact hsum htaken
      rcases hend with ⟨-, hover⟩ | ⟨hlist, hstop⟩
      · exfalso
        rw [Nat.succ_eq_add_one] at hover
        omega
      · have hdone : i = 0 → sum + (m + 1) * (i + 1) = amount := by
          rintro rfl
          have hpos : 0 < start := by omega
          rw [Nat.add_sub_cancel, Nat.mul_div_cancel_left _ hpos] at hstop
          by_contra hne
          exact hstop (nearer_of_le (by omega) (by omega) (by omega) hexact)
        obtain ⟨rest, hrest, hfalling, hvalues, htotal⟩ := ih (by omega) hbound hdone
        have hfits : ¬2 ^ 31 ≤ (start + 1 - (i + 1)) * amount := by
          refine not_le.mpr (lt_of_le_of_lt (Nat.mul_le_mul_right _ ?_) hproduct)
          omega
        refine ⟨List.replicate (m + 1) (i + 1) ++ rest, ?_, ?_, ?_, ?_⟩
        · rw [addValues]
          simp only [if_neg hfits]
          rw [hlist]
          change (addValues amount start i (sum + (m + 1) * (i + 1))).bind _ = _
          rw [hrest]
          rfl
        · refine List.pairwise_append.mpr ⟨?_, hfalling, fun a ha b hb => ?_⟩
          · exact List.pairwise_replicate.mpr (.inr le_rfl)
          · rw [List.eq_of_mem_replicate ha]
            exact (hvalues b hb).2.trans (Nat.le_succ i)
        · intro value hvalue
          rcases List.mem_append.mp hvalue with hmem | hmem
          · rw [List.eq_of_mem_replicate hmem]
            exact ⟨Nat.le_add_left 1 i, le_rfl⟩
          · exact ⟨(hvalues value hmem).1, (hvalues value hmem).2.trans (Nat.le_succ i)⟩
        · rw [List.sum_append, List.sum_replicate, smul_eq_mul, ← Nat.add_assoc]
          exact htotal

/-! ### Where the sum is another -/

theorem addValues_succ {list : List ℕ} (h : addValues amount start (i + 1) sum = some list) :
    (start + 1 - (i + 1)) * amount < 2 ^ 31 ∧ ∃ m rest,
      (∀ j ≤ m, 0 < j →
        Nearer (sum + j * (i + 1)) (i + 1) ((start + 1 - (i + 1)) * amount / start)) ∧
      addValues amount start i (sum + (m + 1) * (i + 1)) = some rest ∧
      list = List.replicate (m + 1) (i + 1) ++ rest := by
  rw [addValues] at h
  dsimp only at h
  split at h
  · exact absurd h.symm (Option.some_ne_none _)
  · rename_i hproduct
    obtain ⟨m, htaken, hend⟩ :=
      addEntries_spec (Nat.succ_pos i) ((start + 1 - (i + 1)) * amount / start) sum
    obtain ⟨⟨entries, sum'⟩, hentries, hrest⟩ := Option.bind_eq_some_iff.mp h
    obtain ⟨rest, hvalues, hlist⟩ := Option.bind_eq_some_iff.mp hrest
    rcases hend with ⟨hnone, -⟩ | ⟨hsome, -⟩
    · rw [hnone] at hentries
      exact absurd hentries.symm (Option.some_ne_none _)
    · obtain ⟨rfl, rfl⟩ := Prod.mk.inj (Option.some.inj (hsome.symm.trans hentries))
      exact ⟨not_le.mp hproduct, m, rest, htaken, hvalues, (Option.some.inj hlist).symm⟩

/-- Every value is taken once. -/
theorem addValues_once {list : List ℕ} (h : addValues amount start i sum = some list) :
    i * (i + 1) ≤ 2 * list.sum := by
  induction i generalizing sum list with
  | zero => omega
  | succ i ih =>
      obtain ⟨-, m, rest, -, hrest, rfl⟩ := addValues_succ h
      have hsum := ih hrest
      rw [List.sum_append, List.sum_replicate, smul_eq_mul]
      nlinarith

/-- The last target is the amount. -/
theorem addValues_product {list : List ℕ} (h : addValues amount start (i + 1) sum = some list) :
    start * amount < 2 ^ 31 := by
  induction i generalizing sum list with
  | zero => exact (addValues_succ h).1
  | succ i ih =>
      obtain ⟨-, m, rest, -, hrest, -⟩ := addValues_succ h
      exact ih hrest

/-- Single entries beyond `2 ^ 24` come to an end at once. -/
theorem ones_stop {m : ℕ} (htaken : ∀ j ≤ m, 0 < j → Nearer (sum + j * 1) 1 med)
    (hlarge : 2 ^ 24 < sum + (m + 1) * 1) : 2 ^ 24 ≤ sum ∧ m ≤ 1 := by
  have hmod : ∀ j ≤ m, 0 < j → 2 ^ 24 ≤ sum + j → (sum + j) % 4 = 2 := by
    intro j hle hpos hge
    have hnearer := htaken j hle hpos
    rw [Nat.mul_one] at hnearer
    exact hnearer.large hge
  refine ⟨?_, ?_⟩
  · by_contra hlt
    have hstall := hmod (2 ^ 24 - sum) (by omega) (by omega) (by omega)
    omega
  · by_contra hmore
    have hge : 2 ^ 24 ≤ sum := by
      by_contra hlt
      have hstall := hmod (2 ^ 24 - sum) (by omega) (by omega) (by omega)
      omega
    have hfirst := hmod 1 (by omega) (by omega) (by omega)
    have hsecond := hmod 2 (by omega) (by omega) (by omega)
    omega

/-- Before a value the sum is not far over the target of the value before it. -/
def Close (amount start i sum : ℕ) : Prop :=
  sum ≤ (start - i) * amount / start + (start - i) * start

theorem Close.step {m : ℕ} (h : Close amount start (i + 1) sum) (hstart : i + 1 ≤ start)
    (htaken : ∀ j ≤ m, 0 < j →
      Nearer (sum + j * (i + 1)) (i + 1) ((start + 1 - (i + 1)) * amount / start)) :
    Close amount start i (sum + (m + 1) * (i + 1)) := by
  unfold Close at h ⊢
  rw [show start + 1 - (i + 1) = start - i by omega] at htaken
  obtain ⟨d, hd⟩ := Nat.exists_eq_add_of_le hstart
  rw [show start - (i + 1) = d by omega] at h
  rw [show start - i = d + 1 by omega] at htaken ⊢
  have hrows : (d + 1) * start = d * start + start := by ring
  have hmore : (m + 1) * (i + 1) = m * (i + 1) + (i + 1) := by ring
  rcases Nat.eq_zero_or_pos m with rfl | hpos
  · have hmono : d * amount / start ≤ (d + 1) * amount / start :=
      Nat.div_le_div_right (Nat.mul_le_mul_right _ (Nat.le_succ d))
    omega
  · have hlt := (htaken m le_rfl hpos).lt.2
    omega

/-- A large amount is never met. -/
theorem addValues_large {list : List ℕ} (hlarge : 2 ^ 24 < amount)
    (hproduct : start * amount < 2 ^ 31) (hstart : i + 1 ≤ start)
    (hclose : Close amount start (i + 1) sum)
    (h : addValues amount start (i + 1) sum = some list) : sum + list.sum ≠ amount := by
  induction i generalizing sum list with
  | zero =>
      obtain ⟨-, m, rest, htaken, hrest, rfl⟩ := addValues_succ h
      obtain rfl : [] = rest := Option.some.inj hrest
      intro htotal
      rw [List.append_nil, List.sum_replicate, smul_eq_mul] at htotal
      obtain ⟨hge, hm⟩ := ones_stop htaken (by omega)
      unfold Close at hclose
      have hsmall : start ≤ 127 := by
        by_contra hlt
        have hge' : 128 * amount ≤ start * amount := Nat.mul_le_mul_right _ (by omega)
        omega
      obtain ⟨d, rfl⟩ := Nat.exists_eq_add_of_le hstart
      have hdiv := Nat.div_mul_le_self ((0 + 1 + d - (0 + 1)) * amount) (0 + 1 + d)
      rw [show 0 + 1 + d - (0 + 1) = d by omega] at hdiv hclose
      generalize d * amount / (0 + 1 + d) = t at hdiv hclose
      have hscaled : (0 + 1 + d) * amount ≤ (0 + 1 + d) * (t + (d * (0 + 1 + d) + 2)) :=
        Nat.mul_le_mul_left _ (by omega)
      have hfar : (0 + 1 + d) * (d * (0 + 1 + d) + 2) ≤ 127 * (126 * 127 + 2) :=
        Nat.mul_le_mul hsmall (Nat.add_le_add_right (Nat.mul_le_mul (by omega) hsmall) 2)
      have hsplit : (0 + 1 + d) * amount = d * amount + amount := by ring
      rw [Nat.mul_add, Nat.mul_comm _ t] at hscaled
      omega
  | succ i ih =>
      obtain ⟨-, m, rest, htaken, hrest, rfl⟩ := addValues_succ h
      rw [List.sum_append, List.sum_replicate, smul_eq_mul, ← Nat.add_assoc]
      exact ih (by omega) (hclose.step hstart htaken) hrest

/-! ### The law of the damage list -/

theorem dealt_of_total {amount start : ℤ} {list : List ℕ} (hne : amount ≠ 0)
    (hlist : generateDamageList amount start = some list) (htotal : (list.sum : ℤ) = amount) :
    Dealt amount start := by
  unfold generateDamageList at hlist
  rcases Int.lt_or_le 0 start with hpos | hnone
  · obtain ⟨s, rfl⟩ := Int.eq_ofNat_of_zero_le hpos.le
    obtain ⟨i, rfl⟩ := Nat.exists_eq_succ_of_ne_zero (by omega : s ≠ 0)
    obtain ⟨a, rfl⟩ := Int.eq_ofNat_of_zero_le (by omega : 0 ≤ amount)
    rw [Int.natAbs_natCast, Int.toNat_natCast] at hlist
    have honce := addValues_once hlist
    have hproduct := addValues_product hlist
    have htotal' : list.sum = a := by exact_mod_cast htotal
    rw [htotal'] at honce
    refine ⟨by omega, by exact_mod_cast honce, ?_, by exact_mod_cast hproduct⟩
    by_contra hlarge
    refine addValues_large (by omega) hproduct le_rfl (Nat.zero_le _) hlist ?_
    rw [Nat.zero_add, htotal']
  · rw [Int.toNat_of_nonpos hnone] at hlist
    obtain rfl : [] = list := Option.some.inj hlist
    exact absurd htotal.symm hne

theorem Dealt.deals {amount start : ℤ} (h : Dealt amount start) :
    ∃ list, generateDamageList amount start = some list ∧ Deals amount start list := by
  obtain ⟨hpos, honce, hexact, hproduct⟩ := h
  obtain ⟨s, rfl⟩ := Int.eq_ofNat_of_zero_le (by omega : 0 ≤ start)
  have hsquare : 0 ≤ (s : ℤ) * (s + 1) := by positivity
  obtain ⟨a, rfl⟩ := Int.eq_ofNat_of_zero_le (by omega : 0 ≤ amount)
  unfold generateDamageList
  rw [Int.natAbs_natCast, Int.toNat_natCast]
  norm_cast at hpos honce hexact hproduct
  obtain ⟨list, hlist, hfalling, hvalues, htotal⟩ := addValues_deals honce hexact hproduct le_rfl
    (by omega : 2 * 0 + s * (s + 1) ≤ 2 * a) (by omega)
  refine ⟨list, hlist, hfalling, fun value hvalue => ?_, ?_⟩
  · exact ⟨(hvalues value hvalue).1, by exact_mod_cast (hvalues value hvalue).2⟩
  · rw [Nat.zero_add] at htotal
    exact_mod_cast htotal

theorem damage_list_iff (amount start : ℤ) (hne : amount ≠ 0) :
    (∃ list, generateDamageList amount start = some list ∧ Deals amount start list) ↔
      Dealt amount start := by
  refine ⟨?_, Dealt.deals⟩
  rintro ⟨list, hlist, hdeals⟩
  exact dealt_of_total hne hlist hdeals.total

/-- What a condition that is not set deals in all is what was rolled, where there is such a list. -/
theorem init_total (d : ConditionDamage) (hperiod : d.periodDamage = 0)
    (hempty : d.damageList = []) {amount : ℕ} (hne : amount ≠ 0) :
    (∃ d', d.init amount = some d' ∧ d'.damageList.sum = -amount) ↔
      Dealt amount (d.start amount) := by
  have hguard : ¬(d.periodDamage ≠ 0 ∨ d.damageList ≠ [] ∨ amount = 0) := by
    rintro (hc | hc | hc)
    · exact hc hperiod
    · exact hc hempty
    · exact hne hc
  have hsum : ∀ list : List ℕ, (list.map fun value : ℕ => -(value : ℤ)).sum = -(list.sum : ℤ) := by
    intro list
    induction list with
    | nil => rfl
    | cons value list ih =>
        rw [List.map_cons, List.sum_cons, ih, List.sum_cons]
        push_cast
        ring
  unfold ConditionDamage.init
  rw [if_neg hguard]
  constructor
  · rintro ⟨d', hd', htotal⟩
    obtain ⟨list, hlist, hinit⟩ := Option.bind_eq_some_iff.mp hd'
    rw [← Option.some.inj hinit] at htotal
    rw [hsum] at htotal
    exact dealt_of_total (by exact_mod_cast hne) hlist (neg_inj.mp htotal)
  · intro h
    obtain ⟨list, hlist, hdeals⟩ := h.deals
    rw [hlist]
    refine ⟨_, rfl, ?_⟩
    rw [hsum, hdeals.total]

namespace Sample

theorem hundred_dealt :
    (∃ list, generateDamageList 100 5 = some list ∧ Deals 100 5 list) ↔ Dealt 100 5 :=
  damage_list_iff 100 5 (by decide)

def poison : ConditionDamage where
  minDamage := 1000
  maxDamage := 1000

/-- A damage of a thousand starts at fifty, and once each value is more already. -/
theorem thousand_exceeded :
    poison.start 1000 = 50 ∧
      ¬∃ list, generateDamageList 1000 50 = some list ∧ Deals 1000 50 list := by
  refine ⟨by decide, ?_⟩
  rintro ⟨list, hlist, hdeals⟩
  have honce : 50 * 51 ≤ 2 * list.sum := addValues_once hlist
  have htotal := hdeals.total
  omega

end Sample

end TibServer.DamageList
