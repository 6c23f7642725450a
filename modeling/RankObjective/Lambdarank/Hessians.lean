import RankObjective.Lambdarank.Gradients

/-!
# The hessians of the pairwise objective are non-negative

Every pair adds `p (1 - p) · sigmoid² · delta_pair_NDCG / (i_bias · j_bias)` to both of its
documents, and the normalisation multiplies by `log2 (1 + s) / s` with `s > 0`.  With table
entries in `[0, 1)`, a non-negative, non-decreasing gain table, integer labels inside it, the
cached inverse ideal DCG of `Init` and positive bias powers, each factor is non-negative; over the
reals a pair of distinct gains has a positive hessian and a negative lambda on its high
document.
-/

namespace RankObjective

variable {K : Type} [LinearOrderedField K] [FloorRing K]

section Signs

variable (L : Libm K) (kMinScore : K) (o : LambdarankNDCG K) (Q : Query K)

theorem deltaPairNDCG_nonneg {hr lr : ℕ}
    (hgap : labelGainAt o.labelGain (Q.label (docAt Q lr)) ≤
      labelGainAt o.labelGain (Q.label (docAt Q hr)))
    (hinv : 0 ≤ o.inverseMaxDcgs Q.queryId) : 0 ≤ deltaPairNDCG L kMinScore o Q hr lr := by
  have h : 0 ≤ (labelGainAt o.labelGain (Q.label (docAt Q hr)) -
      labelGainAt o.labelGain (Q.label (docAt Q lr))) *
        |getDiscount L hr - getDiscount L lr| * o.inverseMaxDcgs Q.queryId :=
    mul_nonneg (mul_nonneg (sub_nonneg.mpr hgap) (abs_nonneg _)) hinv
  unfold deltaPairNDCG
  split_ifs
  · exact div_nonneg h (by positivity)
  · exact h

end Signs

theorem normFactor_real_pos (o : LambdarankNDCG ℝ) (acc : PairLoop ℝ) :
    0 < normFactor Libm.real o acc := by
  unfold normFactor
  split_ifs with h
  · exact div_pos (Libm.real_log2_pos (by linarith [h.2])) h.2
  · exact one_pos

theorem normFactor_real_nonneg (o : LambdarankNDCG ℝ) (acc : PairLoop ℝ) :
    0 ≤ normFactor Libm.real o acc :=
  (normFactor_real_pos o acc).le

section Reals

/-- Over `ℝ` a pair whose high document has the strictly larger gain, at two different ranks,
with a positive inverse ideal DCG, has a positive `delta_pair_NDCG`. -/
theorem deltaPairNDCG_real_pos (kMinScore : ℝ) (o : LambdarankNDCG ℝ) (Q : Query ℝ) {hr lr : ℕ}
    (hgap : labelGainAt o.labelGain (Q.label (docAt Q lr)) <
      labelGainAt o.labelGain (Q.label (docAt Q hr)))
    (hne : hr ≠ lr) (hinv : 0 < o.inverseMaxDcgs Q.queryId) :
    0 < deltaPairNDCG Libm.real kMinScore o Q hr lr := by
  have hdisc : 0 < |getDiscount Libm.real hr - getDiscount Libm.real lr| := by
    refine abs_pos.mpr (sub_ne_zero.mpr ?_)
    rcases Nat.lt_or_gt_of_ne hne with h | h
    · exact (getDiscount_real_lt h).ne'
    · exact (getDiscount_real_lt h).ne
  have hδ := mul_pos (mul_pos (sub_pos.mpr hgap) hdisc) hinv
  dsimp only [deltaPairNDCG]
  split_ifs
  · exact div_pos hδ (by positivity)
  · exact hδ

/-- With a positive steepness and the table of `ConstructSigmoidTable`, a pair of positive
`delta_pair_NDCG` and positive bias powers has a negative lambda and a positive hessian. -/
theorem pairLambda_real_neg {kMinScore : ℝ} {o : LambdarankNDCG ℝ} {Q : Query ℝ}
    (hσ : 0 < o.sigmoid) (htable : o.sigmoidTable = constructSigmoidTable Libm.real o.sigmoid)
    {hr lr : ℕ} (hδ : 0 < deltaPairNDCG Libm.real kMinScore o Q hr lr)
    (hi : 0 < o.iBiasesPow hr) (hj : 0 < o.jBiasesPow lr) :
    pairLambda Libm.real kMinScore o Q hr lr < 0 ∧ 0 < pairHessian Libm.real kMinScore o Q hr lr := by
  have hp : 0 < pairSigmoid o Q hr lr := by
    rw [pairSigmoid, htable]; exact getSigmoid_real_pos hσ _
  have hp₁ : pairSigmoid o Q hr lr < 1 := by
    rw [pairSigmoid, htable]; exact (getSigmoid_real_mem _ _).2
  exact ⟨mul_neg_of_pos_of_neg hp (div_neg_of_neg_of_pos (div_neg_of_neg_of_pos
      (mul_neg_of_neg_of_pos (neg_neg_of_pos hσ) hδ) hi) hj),
    mul_pos (mul_pos hp (sub_pos.mpr hp₁)) (div_pos (div_pos (mul_pos (mul_pos hσ hσ) hδ) hi) hj)⟩

/-- The query of two documents that the examples run on, labels `[1, 0]` and scores `[1, 0]`,
under the gains `[0, 1]`.  With a positive steepness and its table, a positive inverse ideal DCG
and positive bias powers at ranks `0` and `1`, whatever the flags, its one pair is `(0, 1)`: the
routine writes the first document a negative lambda, the second a positive one, and both a
positive hessian. -/
theorem getGradientsForOneQuery_two_documents {o : LambdarankNDCG ℝ} (hT : 0 < o.truncationLevel)
    (hσ : 0 < o.sigmoid) (htable : o.sigmoidTable = constructSigmoidTable Libm.real o.sigmoid)
    (hgain : o.labelGain = [0, 1]) (hinv : 0 < o.inverseMaxDcgs 0)
    (hi : 0 < o.iBiasesPow 0) (hj : 0 < o.jBiasesPow 1) (tid : ℕ) (lambdas hessians : ℕ → ℝ) :
    let Q : Query ℝ := ⟨0, 2, fun d ↦ [1, 0].getD d 0, fun d ↦ [1, 0].getD d 0⟩
    let r := getGradientsForOneQuery Libm.real (-1) o Q tid lambdas hessians
    pairsOf (-1) o Q = [(0, 1)] ∧ r.gradients 0 < 0 ∧ 0 < r.gradients 1 ∧ 0 < r.hessians 0 ∧
      0 < r.hessians 1 := by
  intro Q r
  have hs : sortedIdx Q = [0, 1] := by
    rw [sortedIdx, show List.range Q.cnt = [0, 1] from rfl, List.mergeSort_of_sorted]
    simp [Q]
  have d₀ : docAt Q 0 = 0 := by rw [docAt, hs]; rfl
  have d₁ : docAt Q 1 = 1 := by rw [docAt, hs]; rfl
  have hQ : Q.cnt = 2 ∧ Q.score 0 = 1 ∧ Q.score 1 = 0 ∧ Q.label 0 = ((1 : ℕ) : ℝ) ∧
      Q.label 1 = ((0 : ℕ) : ℝ) := by simp [Q]
  have hp : pairsOf (-1) o Q = [(0, 1)] := by
    rw [pairsOf, contributingPairs, show min (Q.cnt - 1) o.truncationLevel = 1 by rw [hQ.1]; omega,
      hQ.1]
    simp only [show List.range 1 = [0] from rfl, List.flatMap_cons, List.flatMap_nil,
      List.append_nil, show List.range' (0 + 1) (2 - (0 + 1)) = [1] from rfl, List.filterMap_cons,
      List.filterMap_nil, pairRanks, d₀, d₁]
    norm_num [hQ]
  have hδ : 0 < deltaPairNDCG Libm.real (-1) o Q 0 1 := by
    refine deltaPairNDCG_real_pos (-1) o Q ?_ zero_ne_one hinv
    rw [hgain, d₀, d₁, hQ.2.2.2.1, hQ.2.2.2.2, labelGainAt_natCast, labelGainAt_natCast]
    norm_num
  obtain ⟨hl, hh⟩ := pairLambda_real_neg hσ htable hδ hi hj
  obtain ⟨g₀, g₁, h₀, h₁⟩ :=
    getGradientsForOneQuery_single_pair Libm.real (-1) o Q hp tid lambdas hessians
  have hnf := normFactor_real_pos o (pairLoopFrom Libm.real (-1) o Q tid lambdas hessians)
  rw [d₀] at g₀ h₀
  rw [d₁] at g₁ h₁
  exact ⟨hp, g₀ ▸ mul_neg_of_neg_of_pos hl hnf, g₁ ▸ mul_pos (neg_pos.mpr hl) hnf,
    h₀ ▸ mul_pos hh hnf, h₁ ▸ mul_pos hh hnf⟩

/-- `Init`'s inverse ideal DCG of the two-document query: its ideal DCG is the gain `1` of the
first document at discount `1`. -/
theorem inverseMaxDcg_two_documents :
    inverseMaxDcg Libm.real [0, 1] 2 2 (fun d ↦ [1, 0].getD d 0) = 1 := by
  have hideal : ((List.range 2).map fun d ↦ ([1, 0] : List ℝ).getD d 0).mergeSort
      (fun a b ↦ b ≤ a) = [1, 0] := by
    simp [List.range_succ, List.mergeSort, List.merge]
  have hd : getDiscount Libm.real 0 = 1 := by simp [getDiscount]
  simp only [inverseMaxDcg, calMaxDCGAtK, hideal]
  norm_num [List.enum, List.enumFrom, labelGainAt, truncInt, hd]

end Reals

end RankObjective
