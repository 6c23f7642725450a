import RankObjective.Lambdarank.Hessians

/-!
# The lambdas are the derivatives of the LambdaRank surrogate

`GetGradientsForOneQuery` is the gradient step of LambdaMART.  Freeze, at the query's current
scores, the pairs the loop visits, their weights `delta_pair_NDCG / (i_bias · j_bias)` and the
normalisation factor; then the lambda the routine writes for a document is the derivative of the
surrogate `Σ_pairs weight · log (1 + exp (-sigmoid_ (s_high - s_low)))` in that document's score,
and the hessian its second derivative.  The routine reads `1 / (1 + exp (sigmoid_ x))` from the
sigmoid table, so each pair of the document moves the two values away from the derivatives by at
most the table's error `25 / (2 · _sigmoid_bins)` times the pair's weight.
-/

namespace RankObjective

variable {K : Type} [LinearOrderedField K] [FloorRing K]

section Surrogate

variable (L : Libm K) (kMinScore : K) (o : LambdarankNDCG K) (Q : Query K)

/-- The weight `delta_pair_NDCG / i_biases_pow_[high_rank] / j_biases_pow_[low_rank]` by which
lines 325 and 356 scale the sigmoid terms of the pair. -/
def pairWeight (highRank lowRank : ℕ) : K :=
  deltaPairNDCG L kMinScore o Q highRank lowRank / o.iBiasesPow highRank / o.jBiasesPow lowRank

/-- The LambdaRank surrogate of the query at the score vector `s`, its pairs and their weights
frozen at the query's own scores. -/
def surrogateLoss (s : ℕ → K) : K :=
  ((pairsOf kMinScore o Q).map fun p ↦ pairWeight L kMinScore o Q p.1 p.2 *
    L.log (1 + L.exp (-(o.sigmoid * (s (docAt Q p.1) - s (docAt Q p.2)))))).sum

/-- The surrogate along the score of document `d`, every other score held, scaled by a
normalisation factor `nf`. -/
def surrogateAlong (nf : K) (d : ℕ) (t : K) : K :=
  nf * surrogateLoss L kMinScore o Q (Function.update Q.score d t)

/-- The total absolute weight of the visited pairs that hold document `d`. -/
def touchingWeight (d : ℕ) : K :=
  ((pairsOf kMinScore o Q).map fun p ↦
    if d = docAt Q p.1 ∨ d = docAt Q p.2 then |pairWeight L kMinScore o Q p.1 p.2| else 0).sum

theorem pairLambda_eq_weight (highRank lowRank : ℕ) :
    pairLambda L kMinScore o Q highRank lowRank =
      -(o.sigmoid * pairWeight L kMinScore o Q highRank lowRank) * pairSigmoid o Q highRank lowRank := by
  unfold pairLambda pairWeight
  ring

theorem pairHessian_eq_weight (highRank lowRank : ℕ) :
    pairHessian L kMinScore o Q highRank lowRank =
      o.sigmoid * o.sigmoid * pairWeight L kMinScore o Q highRank lowRank *
        (pairSigmoid o Q highRank lowRank * (1 - pairSigmoid o Q highRank lowRank)) := by
  unfold pairHessian pairWeight
  ring

end Surrogate

section Calculus

/-- Termwise bounds on two sums over one list bound the difference of the sums. -/
theorem abs_sum_map_sub_le {ι : Type} (ps : List ι) {f g b : ι → ℝ}
    (h : ∀ p ∈ ps, |f p - g p| ≤ b p) : |(ps.map f).sum - (ps.map g).sum| ≤ (ps.map b).sum := by
  induction ps with
  | nil => simp
  | cons p ps ih =>
    simp only [List.map_cons, List.sum_cons]
    calc |f p + (ps.map f).sum - (g p + (ps.map g).sum)|
        = |(f p - g p) + ((ps.map f).sum - (ps.map g).sum)| := congrArg abs (by ring)
      _ ≤ |f p - g p| + |(ps.map f).sum - (ps.map g).sum| := abs_add _ _
      _ ≤ b p + (ps.map b).sum :=
          add_le_add (h p (List.mem_cons_self _ _)) (ih fun q hq ↦ h q (List.mem_cons_of_mem _ hq))

theorem hasDerivAt_list_sum {ι : Type} (ps : List ι) {f : ι → ℝ → ℝ} {f' : ι → ℝ} {x : ℝ}
    (h : ∀ p ∈ ps, HasDerivAt (f p) (f' p) x) :
    HasDerivAt (fun t ↦ (ps.map fun p ↦ f p t).sum) (ps.map f').sum x := by
  induction ps with
  | nil => simpa using hasDerivAt_const x (0 : ℝ)
  | cons p ps ih =>
    simp only [List.map_cons, List.sum_cons]
    exact (h p (List.mem_cons_self _ _)).add (ih fun q hq ↦ h q (List.mem_cons_of_mem _ hq))

/-- Moving the score of document `d` moves the score read at `e` when `e` is `d`. -/
theorem hasDerivAt_update_apply (s : ℕ → ℝ) (d e : ℕ) (x : ℝ) :
    HasDerivAt (fun t ↦ Function.update s d t e) (if d = e then 1 else 0) x := by
  by_cases h : d = e
  · subst h
    simpa using hasDerivAt_id x
  · simpa [h, Ne.symm h] using hasDerivAt_const x (s e)

variable (sigmoid : ℝ) {u : ℝ → ℝ} {c x : ℝ}

/-- The slope of the pair loss `log (1 + exp (-sigmoid_ u))` along a path `u` is
`-sigmoid_ u'` times the curve the table samples. -/
theorem hasDerivAt_log_one_add_exp (hu : HasDerivAt u c x) :
    HasDerivAt (fun t ↦ Real.log (1 + Real.exp (-(sigmoid * u t))))
      (-(sigmoid * c) * logistic Libm.real sigmoid (u x)) x := by
  have he := Real.exp_pos (sigmoid * u x)
  refine ((((hu.const_mul sigmoid).neg).exp.const_add 1).log (by positivity)).congr_deriv ?_
  simp only [logistic, Libm.real_exp, Real.exp_neg]
  field_simp
  ring

/-- The slope of the curve `1 / (1 + exp (sigmoid_ u))` is `-sigmoid_ u' p (1 - p)`. -/
theorem hasDerivAt_logistic (hu : HasDerivAt u c x) :
    HasDerivAt (fun t ↦ logistic Libm.real sigmoid (u t))
      (-(sigmoid * c) * (logistic Libm.real sigmoid (u x) * (1 - logistic Libm.real sigmoid (u x))))
      x := by
  have he := Real.exp_pos (sigmoid * u x)
  simp only [logistic, Libm.real_exp, one_div]
  refine (((hu.const_mul sigmoid).exp.const_add 1).inv (by positivity)).congr_deriv ?_
  field_simp
  ring

end Calculus

section PairTerms

variable {a b : Prop} [Decidable a] [Decidable b] {sigmoid w g ℓ ε : ℝ}

/-- One pair's share of a lambda against its share of the derivative: they differ by the pair's
weight times the table's error at the pair's score gap, and only for a pair that holds the
document. -/
theorem abs_lambda_term_sub_le (hσ : 0 ≤ sigmoid) (hg : |g - ℓ| ≤ ε) :
    |((if a then -(sigmoid * w) * g else 0) - (if b then -(sigmoid * w) * g else 0)) -
      w * (-(sigmoid * ((if a then 1 else 0) - (if b then 1 else 0))) * ℓ)| ≤
      sigmoid * (ε * (if a ∨ b then |w| else 0)) := by
  have hε : 0 ≤ ε := (abs_nonneg _).trans hg
  have hσw : 0 ≤ sigmoid * |w| := by positivity
  by_cases ha : a <;> by_cases hb : b <;>
    simp only [ha, hb, if_true, if_false, true_or, or_true, or_false]
  · rw [show -(sigmoid * w) * g - -(sigmoid * w) * g - w * (-(sigmoid * (1 - 1)) * ℓ) = 0 by ring,
      abs_zero]
    positivity
  all_goals first
    | rw [show (-(sigmoid * w) * g - 0 - w * (-(sigmoid * (1 - 0)) * ℓ)) =
          -(sigmoid * w * (g - ℓ)) by ring, abs_neg]
    | rw [show (0 - -(sigmoid * w) * g - w * (-(sigmoid * (0 - 1)) * ℓ)) =
          sigmoid * w * (g - ℓ) by ring]
    | simp
  all_goals
    rw [abs_mul, abs_mul, abs_of_nonneg hσ]
    calc sigmoid * |w| * |g - ℓ| ≤ sigmoid * |w| * ε := mul_le_mul_of_nonneg_left hg hσw
      _ = sigmoid * (ε * |w|) := by ring

/-- One pair's share of a hessian against its share of the second derivative, for a pair of two
distinct documents and values of the curve in `[0, 1]`. -/
theorem abs_hessian_term_sub_le (hab : ¬ (a ∧ b)) (hσ : 0 ≤ sigmoid) (hg : |g - ℓ| ≤ ε)
    (hg₁ : 0 ≤ g ∧ g ≤ 1) (hℓ₁ : 0 ≤ ℓ ∧ ℓ ≤ 1) :
    |((if a then sigmoid * sigmoid * w * (g * (1 - g)) else 0) +
        (if b then sigmoid * sigmoid * w * (g * (1 - g)) else 0)) -
      w * (-(sigmoid * ((if a then 1 else 0) - (if b then 1 else 0))) *
        (-(sigmoid * ((if a then 1 else 0) - (if b then 1 else 0))) * (ℓ * (1 - ℓ))))| ≤
      sigmoid * sigmoid * (ε * (if a ∨ b then |w| else 0)) := by
  have hε : 0 ≤ ε := (abs_nonneg _).trans hg
  have hcurve : |g * (1 - g) - ℓ * (1 - ℓ)| ≤ ε := by
    rw [show g * (1 - g) - ℓ * (1 - ℓ) = (g - ℓ) * (1 - g - ℓ) by ring, abs_mul]
    calc |g - ℓ| * |1 - g - ℓ| ≤ ε * 1 :=
          mul_le_mul hg (abs_le.mpr ⟨by linarith, by linarith⟩) (abs_nonneg _) hε
      _ = ε := mul_one ε
  have key : |sigmoid * sigmoid * w * (g * (1 - g) - ℓ * (1 - ℓ))| ≤
      sigmoid * sigmoid * (ε * |w|) := by
    rw [abs_mul, abs_mul, abs_mul, abs_of_nonneg hσ]
    calc sigmoid * sigmoid * |w| * |g * (1 - g) - ℓ * (1 - ℓ)| ≤ sigmoid * sigmoid * |w| * ε :=
          mul_le_mul_of_nonneg_left hcurve (by positivity)
      _ = sigmoid * sigmoid * (ε * |w|) := by ring
  by_cases ha : a <;> by_cases hb : b <;>
    simp only [ha, hb, if_true, if_false, true_or, or_true, or_false]
  · exact absurd ⟨ha, hb⟩ hab
  · rwa [show sigmoid * sigmoid * w * (g * (1 - g)) + 0 -
      w * (-(sigmoid * (1 - 0)) * (-(sigmoid * (1 - 0)) * (ℓ * (1 - ℓ)))) =
        sigmoid * sigmoid * w * (g * (1 - g) - ℓ * (1 - ℓ)) by ring]
  · rwa [show 0 + sigmoid * sigmoid * w * (g * (1 - g)) -
      w * (-(sigmoid * (0 - 1)) * (-(sigmoid * (0 - 1)) * (ℓ * (1 - ℓ)))) =
        sigmoid * sigmoid * w * (g * (1 - g) - ℓ * (1 - ℓ)) by ring]
  · simp

end PairTerms

/-- Over `ℝ` the table is within `25 / (2 · _sigmoid_bins)` of the curve it samples. -/
theorem getSigmoid_real_sub_logistic_le {sigmoid : ℝ} (hσ : 0 < sigmoid) (x : ℝ) :
    |getSigmoid (constructSigmoidTable Libm.real sigmoid) x - logistic Libm.real sigmoid x| ≤
      25 / (2 * sigmoidBins) := by
  have h := getSigmoid_real_sub_logistic hσ x
  rwa [constructSigmoidTable_length, mul_div_cancel₀ _ hσ.ne',
    show (50 : ℝ) / (4 * sigmoidBins) = 25 / (2 * sigmoidBins) by ring] at h

section Derivatives

variable (kMinScore : ℝ) (o : LambdarankNDCG ℝ) (Q : Query ℝ)

/-- With a positive steepness and the table of `ConstructSigmoidTable`, the lambda and the hessian
`GetGradientsForOneQuery` writes for a document `d` of the query are the first and second
derivatives, in `d`'s score, of the LambdaRank surrogate scaled by the routine's normalisation
factor, each up to `25 / (2 · _sigmoid_bins)` times the steepness (its square for the hessian),
the factor and the total weight of `d`'s pairs.  The pairs, their weights and the factor are those
of the query's own scores, and the bias powers the weights divide by are non-zero, as in the code,
whose division by a zero one writes infinities. -/
theorem getGradientsForOneQuery_surrogate_derivs (hσ : 0 < o.sigmoid)
    (htable : o.sigmoidTable = constructSigmoidTable Libm.real o.sigmoid) (tid : ℕ)
    (lambdas hessians : ℕ → ℝ) {d : ℕ} (hd : d < Q.cnt) :
    BiasesPowNonzero kMinScore o Q → Differentiable ℝ (surrogateAlong Libm.real kMinScore o Q
        (normFactor Libm.real o (pairLoopFrom Libm.real kMinScore o Q tid lambdas hessians)) d) ∧
      Differentiable ℝ (deriv (surrogateAlong Libm.real kMinScore o Q
        (normFactor Libm.real o (pairLoopFrom Libm.real kMinScore o Q tid lambdas hessians)) d)) ∧
      |(getGradientsForOneQuery Libm.real kMinScore o Q tid lambdas hessians).gradients d -
        deriv (surrogateAlong Libm.real kMinScore o Q
          (normFactor Libm.real o (pairLoopFrom Libm.real kMinScore o Q tid lambdas hessians)) d)
          (Q.score d)| ≤
        normFactor Libm.real o (pairLoopFrom Libm.real kMinScore o Q tid lambdas hessians) *
          (o.sigmoid * (25 / (2 * sigmoidBins) * touchingWeight Libm.real kMinScore o Q d)) ∧
      |(getGradientsForOneQuery Libm.real kMinScore o Q tid lambdas hessians).hessians d -
        deriv (deriv (surrogateAlong Libm.real kMinScore o Q
          (normFactor Libm.real o (pairLoopFrom Libm.real kMinScore o Q tid lambdas hessians)) d))
          (Q.score d)| ≤
        normFactor Libm.real o (pairLoopFrom Libm.real kMinScore o Q tid lambdas hessians) *
          (o.sigmoid * o.sigmoid * (25 / (2 * sigmoidBins) * touchingWeight Libm.real kMinScore o Q d)) := by
  intro _
  set nf := normFactor Libm.real o (pairLoopFrom Libm.real kMinScore o Q tid lambdas hessians)
  have hnf : 0 ≤ nf := normFactor_real_nonneg o _
  set σ := o.sigmoid
  set w := fun p : ℕ × ℕ ↦ pairWeight Libm.real kMinScore o Q p.1 p.2
  -- the score gap of each pair along the score of `d`, and its slope
  set Δ := fun (p : ℕ × ℕ) (t : ℝ) ↦
    Function.update Q.score d t (docAt Q p.1) - Function.update Q.score d t (docAt Q p.2)
  set c := fun p : ℕ × ℕ ↦ (if d = docAt Q p.1 then (1 : ℝ) else 0) - if d = docAt Q p.2 then 1 else 0
  have hΔ : ∀ p t, HasDerivAt (Δ p) (c p) t := fun p t ↦
    (hasDerivAt_update_apply _ _ _ t).sub (hasDerivAt_update_apply _ _ _ t)
  have hΔd : ∀ p, Δ p (Q.score d) = deltaScore Q p.1 p.2 := fun p ↦ by
    simp only [Δ, Function.update_eq_self, deltaScore]
  set G := fun t ↦ nf * ((pairsOf kMinScore o Q).map fun p ↦
    w p * (-(σ * c p) * logistic Libm.real σ (Δ p t))).sum
  set H := fun t ↦ nf * ((pairsOf kMinScore o Q).map fun p ↦
    w p * (-(σ * c p) * (-(σ * c p) *
      (logistic Libm.real σ (Δ p t) * (1 - logistic Libm.real σ (Δ p t)))))).sum
  have hF : ∀ t, HasDerivAt (surrogateAlong Libm.real kMinScore o Q nf d) (G t) t := fun t ↦
    (hasDerivAt_list_sum _ fun p _ ↦
      (hasDerivAt_log_one_add_exp σ (hΔ p t)).const_mul (w p)).const_mul nf
  have hG : ∀ t, HasDerivAt G (H t) t := fun t ↦
    (hasDerivAt_list_sum _ fun p _ ↦
      ((hasDerivAt_logistic σ (hΔ p t)).const_mul (-(σ * c p))).const_mul (w p)).const_mul nf
  have hderiv : deriv (surrogateAlong Libm.real kMinScore o Q nf d) = G :=
    funext fun t ↦ (hF t).deriv
  have hε := fun p : ℕ × ℕ ↦ getSigmoid_real_sub_logistic_le hσ (deltaScore Q p.1 p.2)
  obtain ⟨hg, hh, -⟩ := getGradientsForOneQuery_apply Libm.real kMinScore o Q tid lambdas hessians d
  obtain ⟨hl, hl', -⟩ := pairLoopFrom_apply Libm.real kMinScore o Q tid lambdas hessians d
  refine ⟨fun t ↦ (hF t).differentiableAt, hderiv ▸ fun t ↦ (hG t).differentiableAt, ?_, ?_⟩
  · rw [hderiv, hg, if_pos hd, hl, if_pos hd, zero_add, mul_comm _ nf, ← mul_sub, abs_mul,
      abs_of_nonneg hnf]
    refine mul_le_mul_of_nonneg_left ?_ hnf
    rw [touchingWeight, ← List.sum_map_mul_left, ← List.sum_map_mul_left]
    refine abs_sum_map_sub_le _ fun p _ ↦ ?_
    rw [pairLambda_eq_weight, pairSigmoid, htable, hΔd]
    exact abs_lambda_term_sub_le hσ.le (hε p)
  · rw [hderiv, (hG (Q.score d)).deriv, hh, if_pos hd, hl', if_pos hd, zero_add, mul_comm _ nf,
      ← mul_sub, abs_mul, abs_of_nonneg hnf]
    refine mul_le_mul_of_nonneg_left ?_ hnf
    rw [touchingWeight, ← List.sum_map_mul_left, ← List.sum_map_mul_left]
    refine abs_sum_map_sub_le _ fun p hp ↦ ?_
    have hne : ¬ (d = docAt Q p.1 ∧ d = docAt Q p.2) := fun h ↦
      (contributingPairs_spec kMinScore Q hp).2.2.1.ne (by rw [← h.1, ← h.2])
    have hsig := getSigmoid_real_mem σ (deltaScore Q p.1 p.2)
    rw [pairHessian_eq_weight, pairSigmoid, htable, hΔd]
    exact abs_hessian_term_sub_le hne hσ.le (hε p) ⟨hsig.1, hsig.2.le⟩
      ⟨(logistic_real_pos _).le, (logistic_real_lt_one _).le⟩

/-- The query of two documents with labels and scores `1` and `0`, for steepness `1`, truncation
level `2`, gains `[0, 1]`, inverse max DCG `1` and bias powers `1`: the first document's lambda is
negative and lies within the bound of the first derivative of the surrogate. -/
theorem getGradientsForOneQuery_surrogate_derivs_pair :
    let o : LambdarankNDCG ℝ := { (default : LambdarankNDCG ℝ) with
      sigmoid := 1
      truncationLevel := 2
      labelGain := [0, 1]
      sigmoidTable := constructSigmoidTable Libm.real 1
      inverseMaxDcgs := fun _ ↦ 1
      iBiasesPow := fun _ ↦ 1
      jBiasesPow := fun _ ↦ 1 }
    let Q : Query ℝ := ⟨0, 2, fun d ↦ [1, 0].getD d 0, fun d ↦ [1, 0].getD d 0⟩
    let nf := normFactor Libm.real o (pairLoopFrom Libm.real (-1) o Q 0 (fun _ ↦ 0) (fun _ ↦ 0))
    let r := getGradientsForOneQuery Libm.real (-1) o Q 0 (fun _ ↦ 0) (fun _ ↦ 0)
    BiasesPowNonzero (-1) o Q ∧ r.gradients 0 < 0 ∧
      |r.gradients 0 - deriv (surrogateAlong Libm.real (-1) o Q nf 0) 1| ≤
        nf * (1 * (25 / (2 * sigmoidBins) * touchingWeight Libm.real (-1) o Q 0)) := by
  intro o Q nf r
  have hbias : BiasesPowNonzero (-1) o Q := fun _ _ ↦ ⟨one_ne_zero, one_ne_zero⟩
  exact ⟨hbias, (getGradientsForOneQuery_two_documents (o := o) two_pos one_pos rfl rfl one_pos
    one_pos one_pos 0 _ _).2.1,
    (getGradientsForOneQuery_surrogate_derivs (-1) o Q one_pos rfl 0 _ _ (d := 0) two_pos
      hbias).2.2.1⟩

end Derivatives

end RankObjective
