import RankObjective.Basic

/-!
# The sigmoid lookup table

`ConstructSigmoidTable` samples `1 / (1 + exp (sigmoid_ * x))` at the left end of each of
`_sigmoid_bins` bins of `[min_sigmoid_input_, max_sigmoid_input_]`, and `GetSigmoid` returns
the sample of the bin of its argument, clamping to the first and last entry outside the
domain.  Every value it returns is therefore an entry of the table; over `ℝ` the entries lie in
`(0, 1)`, which is all the gradient code needs of them.
-/

namespace RankObjective

variable {K : Type} [LinearOrderedField K] [FloorRing K]

/-- The members of `LambdarankNDCG` that hold the sigmoid table. -/
structure SigmoidTable (K : Type) where
  /-- `_sigmoid_bins` -/
  bins : ℕ
  /-- `min_sigmoid_input_` -/
  minInput : K
  /-- `max_sigmoid_input_` -/
  maxInput : K
  /-- `sigmoid_table_idx_factor_` -/
  idxFactor : K
  /-- `sigmoid_table_`; indices from `bins` on lie outside the vector. -/
  table : ℕ → K
  deriving Inhabited

/-- The member initialiser `_sigmoid_bins = 1024 * 1024`. -/
def sigmoidBins : ℕ := 1024 * 1024

/-- `ConstructSigmoidTable`, run once on the member initialiser `min_sigmoid_input_ = -50`.
The loop writes each of the `_sigmoid_bins` entries once; it is given here entry by entry. -/
def constructSigmoidTable (L : Libm K) (sigmoid : K) : SigmoidTable K :=
  let minInput := -50 / sigmoid / 2
  let maxInput := -minInput
  let idxFactor := (sigmoidBins : K) / (maxInput - minInput)
  { bins := sigmoidBins
    minInput := minInput
    maxInput := maxInput
    idxFactor := idxFactor
    table := fun i ↦
      if i < sigmoidBins then 1 / (1 + L.exp (((i : K) / idxFactor + minInput) * sigmoid))
      else 0 }

/-- `GetSigmoid`: the table entry of the bin of `score`, clamped to the ends of the table. -/
def getSigmoid (t : SigmoidTable K) (score : K) : K :=
  if score ≤ t.minInput then t.table 0
  else if t.maxInput ≤ score then t.table (t.bins - 1)
  else t.table ⌊(score - t.minInput) * t.idxFactor⌋₊

/-- `GetSigmoid` only ever returns an entry of the table. -/
theorem getSigmoid_mem_table (t : SigmoidTable K) (score : K) :
    ∃ i, getSigmoid t score = t.table i := by
  unfold getSigmoid
  split_ifs <;> exact ⟨_, rfl⟩

/-- Over `ℝ` every entry of the table lies in `[0, 1)`: the stored samples are in `(0, 1)` and
reads past the vector are read as `0`. -/
theorem constructSigmoidTable_real_mem (sigmoid : ℝ) (i : ℕ) :
    0 ≤ (constructSigmoidTable Libm.real sigmoid).table i ∧
      (constructSigmoidTable Libm.real sigmoid).table i < 1 := by
  simp only [constructSigmoidTable, Libm.real_exp]
  split_ifs
  · have he := Real.exp_pos (((i : ℝ) / ((sigmoidBins : ℝ) / (-(-50 / sigmoid / 2) -
      -50 / sigmoid / 2)) + -50 / sigmoid / 2) * sigmoid)
    refine ⟨by positivity, ?_⟩
    rw [div_lt_one (by positivity)]
    linarith
  · exact ⟨le_rfl, one_pos⟩

theorem constructSigmoidTable_real_pos (sigmoid : ℝ) {i : ℕ} (hi : i < sigmoidBins) :
    0 < (constructSigmoidTable Libm.real sigmoid).table i := by
  simp only [constructSigmoidTable, Libm.real_exp, if_pos hi]
  positivity

/-- The index of `sigmoid_table_` that `GetSigmoid` reads. -/
def sigmoidIndex (t : SigmoidTable K) (score : K) : ℕ :=
  if score ≤ t.minInput then 0
  else if t.maxInput ≤ score then t.bins - 1
  else ⌊(score - t.minInput) * t.idxFactor⌋₊

theorem getSigmoid_eq_table (t : SigmoidTable K) (score : K) :
    getSigmoid t score = t.table (sigmoidIndex t score) := by
  unfold getSigmoid sigmoidIndex
  split_ifs <;> rfl

/-- The curve the table samples, `1 / (1 + exp (sigmoid_ * x))`. -/
def logistic (L : Libm K) (sigmoid x : K) : K := 1 / (1 + L.exp (sigmoid * x))

section Table

variable (L : Libm K) (sigmoid : K)

omit [FloorRing K] in
theorem constructSigmoidTable_minInput : (constructSigmoidTable L sigmoid).minInput = -25 / sigmoid := by
  show -50 / sigmoid / 2 = _
  ring

omit [FloorRing K] in
theorem constructSigmoidTable_maxInput : (constructSigmoidTable L sigmoid).maxInput = 25 / sigmoid := by
  show -(-50 / sigmoid / 2) = _
  ring

omit [FloorRing K] in
/-- The domain `[min_sigmoid_input_, max_sigmoid_input_]` has length `50 / sigmoid_`. -/
theorem constructSigmoidTable_length :
    (constructSigmoidTable L sigmoid).maxInput - (constructSigmoidTable L sigmoid).minInput =
      50 / sigmoid := by
  rw [constructSigmoidTable_minInput, constructSigmoidTable_maxInput]
  ring

omit [FloorRing K] in
theorem constructSigmoidTable_idxFactor :
    (constructSigmoidTable L sigmoid).idxFactor = sigmoidBins / (50 / sigmoid) := by
  rw [← constructSigmoidTable_length L]
  rfl

omit [FloorRing K] in
/-- The width of a bin, `1 / sigmoid_table_idx_factor_`. -/
theorem constructSigmoidTable_width :
    1 / (constructSigmoidTable L sigmoid).idxFactor = 50 / sigmoid / sigmoidBins := by
  rw [constructSigmoidTable_idxFactor, one_div_div]

omit [FloorRing K] in
theorem constructSigmoidTable_idxFactor_pos (hσ : 0 < sigmoid) :
    0 < (constructSigmoidTable L sigmoid).idxFactor := by
  rw [constructSigmoidTable_idxFactor]
  exact div_pos (by norm_num [sigmoidBins]) (div_pos (by norm_num) hσ)

omit [FloorRing K] in
/-- Entry `i` is the curve at the left end of bin `i`. -/
theorem constructSigmoidTable_table {i : ℕ} (hi : i < sigmoidBins) :
    (constructSigmoidTable L sigmoid).table i = logistic L sigmoid
      (i / (constructSigmoidTable L sigmoid).idxFactor + (constructSigmoidTable L sigmoid).minInput) := by
  simp only [constructSigmoidTable, if_pos hi, logistic, mul_comm sigmoid]

/-- With a positive steepness every index `GetSigmoid` reads lies below `_sigmoid_bins`: inside
the domain the scaled offset stays below `(max - min) * sigmoid_table_idx_factor_ = _sigmoid_bins`. -/
theorem sigmoidIndex_lt (hσ : 0 < sigmoid) (x : K) :
    sigmoidIndex (constructSigmoidTable L sigmoid) x < sigmoidBins := by
  have hbins : 0 < sigmoidBins := by decide
  have hf := constructSigmoidTable_idxFactor_pos L sigmoid hσ
  unfold sigmoidIndex
  split_ifs with h₁ h₂
  · exact hbins
  · exact Nat.sub_lt hbins one_pos
  · rw [not_le] at h₁ h₂
    refine (Nat.floor_lt (mul_nonneg (sub_nonneg.mpr h₁.le) hf.le)).mpr ?_
    calc (x - (constructSigmoidTable L sigmoid).minInput) * (constructSigmoidTable L sigmoid).idxFactor
        < 50 / sigmoid * (constructSigmoidTable L sigmoid).idxFactor := by
          rw [← constructSigmoidTable_length L]
          exact mul_lt_mul_of_pos_right (sub_lt_sub_right h₂ _) hf
      _ = sigmoidBins := by
          rw [constructSigmoidTable_idxFactor, mul_div_cancel₀ _ (div_pos (by norm_num) hσ).ne']

/-- The index `GetSigmoid` reads never decreases as its argument grows. -/
theorem sigmoidIndex_mono (hσ : 0 < sigmoid) {x y : K} (h : x ≤ y) :
    sigmoidIndex (constructSigmoidTable L sigmoid) x ≤ sigmoidIndex (constructSigmoidTable L sigmoid) y := by
  have hx := sigmoidIndex_lt L sigmoid hσ x
  by_cases hx₁ : x ≤ (constructSigmoidTable L sigmoid).minInput
  · rw [sigmoidIndex, if_pos hx₁]
    exact Nat.zero_le _
  have hy₁ : ¬ y ≤ (constructSigmoidTable L sigmoid).minInput := fun hy ↦ hx₁ (h.trans hy)
  by_cases hy₂ : (constructSigmoidTable L sigmoid).maxInput ≤ y
  · have hy : sigmoidIndex (constructSigmoidTable L sigmoid) y = sigmoidBins - 1 := by
      rw [sigmoidIndex, if_neg hy₁, if_pos hy₂]
      rfl
    rw [hy]
    omega
  have hx₂ : ¬ (constructSigmoidTable L sigmoid).maxInput ≤ x := fun hx ↦ hy₂ (hx.trans h)
  rw [sigmoidIndex, sigmoidIndex, if_neg hx₁, if_neg hx₂, if_neg hy₁, if_neg hy₂]
  exact Nat.floor_le_floor (mul_le_mul_of_nonneg_right (sub_le_sub_right h _)
    (constructSigmoidTable_idxFactor_pos L sigmoid hσ).le)

/-- The table for steepness `sigmoid_ / a` read at `a x` is the table for `sigmoid_` read at
`x`: the domain, the bins and the samples all scale with `a`. -/
theorem getSigmoid_constructSigmoidTable_div {a : K} (ha : 0 < a) (x : K) :
    getSigmoid (constructSigmoidTable L (sigmoid / a)) (a * x) =
      getSigmoid (constructSigmoidTable L sigmoid) x := by
  have ha' := ha.ne'
  have hmin : (constructSigmoidTable L (sigmoid / a)).minInput =
      a * (constructSigmoidTable L sigmoid).minInput := by
    show -50 / (sigmoid / a) / 2 = a * (-50 / sigmoid / 2)
    rw [div_div_eq_mul_div]
    ring
  have hmax : (constructSigmoidTable L (sigmoid / a)).maxInput =
      a * (constructSigmoidTable L sigmoid).maxInput := by
    show -(-50 / (sigmoid / a) / 2) = a * -(-50 / sigmoid / 2)
    rw [div_div_eq_mul_div]
    ring
  have hidx : (constructSigmoidTable L (sigmoid / a)).idxFactor =
      (constructSigmoidTable L sigmoid).idxFactor / a := by
    show (sigmoidBins : K) / ((constructSigmoidTable L (sigmoid / a)).maxInput -
      (constructSigmoidTable L (sigmoid / a)).minInput) = (sigmoidBins : K) /
        ((constructSigmoidTable L sigmoid).maxInput - (constructSigmoidTable L sigmoid).minInput) / a
    rw [hmin, hmax, ← mul_sub, div_div, mul_comm a]
  have htable : (constructSigmoidTable L (sigmoid / a)).table =
      (constructSigmoidTable L sigmoid).table := by
    funext i
    by_cases hi : i < sigmoidBins
    · rw [constructSigmoidTable_table L _ hi, constructSigmoidTable_table L _ hi, hidx, hmin,
        logistic, logistic, div_div_eq_mul_div]
      rw [show (i : K) * a / (constructSigmoidTable L sigmoid).idxFactor +
          a * (constructSigmoidTable L sigmoid).minInput = a * (i / (constructSigmoidTable L sigmoid).idxFactor +
            (constructSigmoidTable L sigmoid).minInput) by ring,
        div_mul_eq_mul_div, mul_div_assoc, mul_div_cancel_left₀ _ ha']
    · simp only [constructSigmoidTable, if_neg hi]
  have hindex : sigmoidIndex (constructSigmoidTable L (sigmoid / a)) (a * x) =
      sigmoidIndex (constructSigmoidTable L sigmoid) x := by
    have hprod : (a * x - a * (constructSigmoidTable L sigmoid).minInput) *
        ((constructSigmoidTable L sigmoid).idxFactor / a) =
          (x - (constructSigmoidTable L sigmoid).minInput) * (constructSigmoidTable L sigmoid).idxFactor := by
      rw [← mul_sub, mul_comm a, mul_assoc, ← mul_div_assoc, mul_div_cancel_left₀ _ ha']
    simp only [sigmoidIndex, hmin, hmax, hidx, mul_le_mul_left ha, hprod]
    rfl
  rw [getSigmoid_eq_table, getSigmoid_eq_table, hindex, htable]

end Table

/-- With a positive `sigmoid_` every value `GetSigmoid` returns is a stored sample. -/
theorem getSigmoid_real_pos {sigmoid : ℝ} (hσ : 0 < sigmoid) (score : ℝ) :
    0 < getSigmoid (constructSigmoidTable Libm.real sigmoid) score := by
  rw [getSigmoid_eq_table]
  exact constructSigmoidTable_real_pos sigmoid (sigmoidIndex_lt Libm.real sigmoid hσ score)

theorem getSigmoid_real_mem (sigmoid score : ℝ) :
    0 ≤ getSigmoid (constructSigmoidTable Libm.real sigmoid) score ∧
      getSigmoid (constructSigmoidTable Libm.real sigmoid) score < 1 := by
  obtain ⟨i, hi⟩ := getSigmoid_mem_table (constructSigmoidTable Libm.real sigmoid) score
  rw [hi]
  exact constructSigmoidTable_real_mem sigmoid i

section Reals

variable {sigmoid : ℝ}

/-- The curve is `sigmoid_ / 4`-Lipschitz: its slope is `-sigmoid_ e / (1 + e) ^ 2` with
`e = exp (sigmoid_ x)`, and `4 e ≤ (1 + e) ^ 2`. -/
theorem logistic_real_lipschitz (hσ : 0 ≤ sigmoid) (x y : ℝ) :
    |logistic Libm.real sigmoid x - logistic Libm.real sigmoid y| ≤ sigmoid / 4 * |x - y| := by
  have hd : ∀ z, HasDerivAt (fun z ↦ 1 / (1 + Real.exp (sigmoid * z)))
      (-(Real.exp (sigmoid * z) * sigmoid) / (1 + Real.exp (sigmoid * z)) ^ 2) z := fun z ↦ by
    have h := ((((hasDerivAt_id z).const_mul sigmoid).exp).const_add 1).inv (by positivity)
    simpa [one_div] using h
  have hb : ∀ z, ‖-(Real.exp (sigmoid * z) * sigmoid) / (1 + Real.exp (sigmoid * z)) ^ 2‖ ≤
      sigmoid / 4 := fun z ↦ by
    have he := Real.exp_pos (sigmoid * z)
    rw [Real.norm_eq_abs, abs_div, abs_neg, abs_of_nonneg (by positivity),
      abs_of_pos (by positivity), div_le_div_iff₀ (by positivity) (by norm_num)]
    nlinarith [mul_nonneg hσ (sq_nonneg (1 - Real.exp (sigmoid * z)))]
  simpa only [Real.norm_eq_abs] using Convex.norm_image_sub_le_of_norm_hasDerivWithin_le
    (fun z _ ↦ (hd z).hasDerivWithinAt) (fun z _ ↦ hb z) convex_univ (Set.mem_univ y)
    (Set.mem_univ x)

theorem logistic_real_antitone (hσ : 0 ≤ sigmoid) {x y : ℝ} (h : x ≤ y) :
    logistic Libm.real sigmoid y ≤ logistic Libm.real sigmoid x := by
  simp only [logistic, Libm.real_exp]
  gcongr

theorem logistic_real_pos (x : ℝ) : 0 < logistic Libm.real sigmoid x := by
  simp only [logistic, Libm.real_exp]
  positivity

theorem logistic_real_lt_one (x : ℝ) : logistic Libm.real sigmoid x < 1 := by
  simp only [logistic, Libm.real_exp]
  rw [div_lt_one (by positivity)]
  linarith [Real.exp_pos (sigmoid * x)]

/-- Far left the curve is within `exp (sigmoid_ x)` of `1`. -/
theorem one_sub_logistic_real_le (x : ℝ) :
    1 - logistic Libm.real sigmoid x ≤ Real.exp (sigmoid * x) := by
  have he := Real.exp_pos (sigmoid * x)
  simp only [logistic, Libm.real_exp]
  rw [one_sub_div (by positivity), add_sub_cancel_left]
  exact div_le_self he.le (by linarith)

/-- Far right the curve is within `exp (-(sigmoid_ x))` of `0`. -/
theorem logistic_real_le_exp (x : ℝ) : logistic Libm.real sigmoid x ≤ Real.exp (-(sigmoid * x)) := by
  simp only [logistic, Libm.real_exp]
  rw [Real.exp_neg, ← one_div]
  exact one_div_le_one_div_of_le (Real.exp_pos _) (by linarith)

/-- Along the table the samples fall: entry `i` is the curve at the left end of bin `i`. -/
theorem constructSigmoidTable_real_antitone (hσ : 0 < sigmoid) {i j : ℕ} (hij : i ≤ j)
    (hj : j < sigmoidBins) :
    (constructSigmoidTable Libm.real sigmoid).table j ≤ (constructSigmoidTable Libm.real sigmoid).table i := by
  rw [constructSigmoidTable_table Libm.real sigmoid hj,
    constructSigmoidTable_table Libm.real sigmoid (hij.trans_lt hj)]
  exact logistic_real_antitone hσ.le (add_le_add_right (div_le_div_of_nonneg_right
    (Nat.cast_le.mpr hij) (constructSigmoidTable_idxFactor_pos Libm.real sigmoid hσ).le) _)

/-- With a positive steepness `GetSigmoid` never increases with its argument, as the curve
`1 / (1 + exp (sigmoid_ x))` it stands for: a pair ranked the wrong way round, with the lower
score on the higher label, gets a `p_lambda` at least that of any pair ranked the right way. -/
theorem getSigmoid_real_antitone (hσ : 0 < sigmoid) {x y : ℝ} (h : x ≤ y) :
    getSigmoid (constructSigmoidTable Libm.real sigmoid) y ≤
      getSigmoid (constructSigmoidTable Libm.real sigmoid) x := by
  rw [getSigmoid_eq_table, getSigmoid_eq_table]
  exact constructSigmoidTable_real_antitone hσ (sigmoidIndex_mono Libm.real sigmoid hσ h)
    (sigmoidIndex_lt Libm.real sigmoid hσ y)

/-- The tails of the curve beyond the table's domain are shorter than the table's error bound. -/
theorem exp_neg_24_le : Real.exp (-24) ≤ 25 / (2 * sigmoidBins) := by
  have h2 : (2 : ℝ) ≤ Real.exp 1 := by linarith [Real.add_one_le_exp (1 : ℝ)]
  have h : (2 : ℝ) ^ 24 ≤ Real.exp 24 := by
    calc (2 : ℝ) ^ 24 ≤ Real.exp 1 ^ 24 := pow_le_pow_left₀ (by norm_num) h2 24
      _ = Real.exp 24 := by rw [← Real.exp_nat_mul]; norm_num
  rw [Real.exp_neg]
  calc (Real.exp 24)⁻¹ ≤ ((2 : ℝ) ^ 24)⁻¹ := inv_anti₀ (by positivity) h
    _ ≤ 25 / (2 * sigmoidBins) := by norm_num [sigmoidBins]

/-- Over the whole line the lookup is within `sigmoid_ * (max - min) / (4 * _sigmoid_bins)` of the
curve: inside the domain it is the curve at the left end of the bin, at most one bin width away;
beyond the domain the curve stays within `exp (-24)` of the clamped entry. -/
theorem getSigmoid_real_sub_logistic (hσ : 0 < sigmoid) (x : ℝ) :
    |getSigmoid (constructSigmoidTable Libm.real sigmoid) x - logistic Libm.real sigmoid x| ≤
      sigmoid * ((constructSigmoidTable Libm.real sigmoid).maxInput -
        (constructSigmoidTable Libm.real sigmoid).minInput) / (4 * sigmoidBins) := by
  set t := constructSigmoidTable Libm.real sigmoid
  have hmin : t.minInput = -25 / sigmoid := constructSigmoidTable_minInput Libm.real sigmoid
  have hmax : t.maxInput = 25 / sigmoid := constructSigmoidTable_maxInput Libm.real sigmoid
  have hf : 0 < t.idxFactor := constructSigmoidTable_idxFactor_pos Libm.real sigmoid hσ
  have hbound : sigmoid * (t.maxInput - t.minInput) / (4 * sigmoidBins) =
      sigmoid / 4 * (1 / t.idxFactor) := by
    rw [constructSigmoidTable_length, constructSigmoidTable_width]
    ring
  have htail : Real.exp (-24) ≤ sigmoid * (t.maxInput - t.minInput) / (4 * sigmoidBins) := by
    refine exp_neg_24_le.trans (le_of_eq ?_)
    rw [constructSigmoidTable_length, mul_div_cancel₀ _ hσ.ne']
    ring
  rw [getSigmoid]
  split_ifs with h₁ h₂
  · -- left of the domain: the first entry, the curve at `min_sigmoid_input_`
    rw [constructSigmoidTable_table Libm.real sigmoid (by decide), Nat.cast_zero, zero_div,
      zero_add, abs_sub_comm, abs_of_nonneg (sub_nonneg.mpr (logistic_real_antitone hσ.le h₁))]
    calc logistic Libm.real sigmoid x - logistic Libm.real sigmoid t.minInput
        ≤ 1 - logistic Libm.real sigmoid t.minInput := sub_le_sub_right (logistic_real_lt_one x).le _
      _ ≤ Real.exp (sigmoid * t.minInput) := one_sub_logistic_real_le _
      _ ≤ Real.exp (-24) := Real.exp_le_exp.mpr (by rw [hmin, mul_div_cancel₀ _ hσ.ne']; norm_num)
      _ ≤ _ := htail
  · -- right of the domain: the last entry, the curve one bin width left of `max_sigmoid_input_`
    have hlast : sigmoidBins - 1 < sigmoidBins := by decide
    rw [show t.bins = sigmoidBins from rfl, constructSigmoidTable_table Libm.real sigmoid hlast]
    obtain ⟨xb, hxb_def⟩ : ∃ xb, xb = ((sigmoidBins - 1 : ℕ) : ℝ) / t.idxFactor + t.minInput :=
      ⟨_, rfl⟩
    rw [← hxb_def]
    have hb : (sigmoidBins : ℝ) ≠ 0 := by norm_num [sigmoidBins]
    have hxb : sigmoid * xb = 25 - 50 / sigmoidBins := by
      rw [hxb_def, div_eq_mul_one_div _ t.idxFactor, constructSigmoidTable_width, hmin,
        Nat.cast_sub (by decide), Nat.cast_one, sub_mul, one_mul, mul_div_cancel₀ _ hb,
        show 50 / sigmoid - 50 / sigmoid / sigmoidBins + -25 / sigmoid =
          (25 - 50 / sigmoidBins) / sigmoid by ring, mul_div_cancel₀ _ hσ.ne']
    have hxbx : xb ≤ x := by
      refine le_trans ?_ h₂
      rw [hmax, le_div_iff₀' hσ, hxb]
      exact sub_le_self _ (by positivity)
    have h50 : (50 : ℝ) / sigmoidBins ≤ 1 := by norm_num [sigmoidBins]
    rw [abs_of_nonneg (sub_nonneg.mpr (logistic_real_antitone hσ.le hxbx))]
    calc logistic Libm.real sigmoid xb - logistic Libm.real sigmoid x
        ≤ logistic Libm.real sigmoid xb := sub_le_self _ (logistic_real_pos x).le
      _ ≤ Real.exp (-(sigmoid * xb)) := logistic_real_le_exp _
      _ ≤ Real.exp (-24) := Real.exp_le_exp.mpr (by rw [hxb]; linarith only [h50])
      _ ≤ _ := htail
  · -- inside the domain: the curve at the left end of the bin of `x`
    have hi := sigmoidIndex_lt Libm.real sigmoid hσ x
    rw [sigmoidIndex, if_neg h₁, if_neg h₂] at hi
    rw [constructSigmoidTable_table Libm.real sigmoid hi, hbound]
    refine (logistic_real_lipschitz hσ.le _ _).trans (mul_le_mul_of_nonneg_left ?_ (by positivity))
    have ha : 0 ≤ (x - t.minInput) * t.idxFactor :=
      mul_nonneg (sub_nonneg.mpr (not_le.mp h₁).le) hf.le
    have hlo := Nat.floor_le ha
    have hhi := Nat.lt_floor_add_one ((x - t.minInput) * t.idxFactor)
    have he : (⌊(x - t.minInput) * t.idxFactor⌋₊ : ℝ) / t.idxFactor + t.minInput - x =
        ((⌊(x - t.minInput) * t.idxFactor⌋₊ : ℝ) - (x - t.minInput) * t.idxFactor) / t.idxFactor := by
      rw [sub_div, mul_div_cancel_right₀ _ hf.ne']
      ring
    rw [he, abs_div, abs_of_pos hf]
    exact div_le_div_of_nonneg_right
      (abs_le.mpr ⟨by linarith only [hhi], by linarith only [hlo]⟩) hf.le

/-- With a positive steepness, `GetSigmoid` reads the table at an index below `_sigmoid_bins`,
returns the first entry left of `min_sigmoid_input_ = -25 / sigmoid_` and the last one right of
`max_sigmoid_input_ = 25 / sigmoid_`, and is within `sigmoid_ * (max - min) / (4 * _sigmoid_bins)`
of `1 / (1 + exp (sigmoid_ * x))` everywhere. -/
theorem getSigmoid_real_error (hσ : 0 < sigmoid) (t : SigmoidTable ℝ)
    (ht : t = constructSigmoidTable Libm.real sigmoid) (x : ℝ) :
    t.minInput = -25 / sigmoid ∧ t.maxInput = 25 / sigmoid ∧ t.bins = sigmoidBins ∧
      sigmoidIndex t x < t.bins ∧ getSigmoid t x = t.table (sigmoidIndex t x) ∧
      (x ≤ t.minInput → getSigmoid t x = t.table 0) ∧
      (t.maxInput ≤ x → getSigmoid t x = t.table (t.bins - 1)) ∧
      |getSigmoid t x - 1 / (1 + Real.exp (sigmoid * x))| ≤
        sigmoid * (t.maxInput - t.minInput) / (4 * t.bins) := by
  subst ht
  have hmin := constructSigmoidTable_minInput Libm.real sigmoid
  have hmax := constructSigmoidTable_maxInput Libm.real sigmoid
  have hlt : -25 / sigmoid < 25 / sigmoid := by
    rw [neg_div]
    linarith [div_pos (by norm_num : (0 : ℝ) < 25) hσ]
  refine ⟨hmin, hmax, rfl, sigmoidIndex_lt Libm.real sigmoid hσ x, getSigmoid_eq_table _ x,
    fun h ↦ if_pos h, fun h ↦ ?_, getSigmoid_real_sub_logistic hσ x⟩
  rw [getSigmoid, if_neg (by rw [hmin]; rw [hmax] at h; linarith), if_pos h]

theorem getSigmoid_real_error_at_zero :
    |getSigmoid (constructSigmoidTable Libm.real 1) 0 - 1 / (1 + Real.exp (1 * 0))| ≤
      1 * ((constructSigmoidTable Libm.real 1).maxInput - (constructSigmoidTable Libm.real 1).minInput) /
        (4 * (constructSigmoidTable Libm.real 1).bins) :=
  (getSigmoid_real_error one_pos _ rfl 0).2.2.2.2.2.2.2

/-- Steepness `1`, at `-1 ≤ 2`. -/
theorem getSigmoid_real_antitone_sample :
    getSigmoid (constructSigmoidTable Libm.real 1) 2 ≤ getSigmoid (constructSigmoidTable Libm.real 1) (-1) :=
  getSigmoid_real_antitone one_pos (by norm_num)

end Reals

end RankObjective
