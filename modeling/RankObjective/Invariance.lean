import RankObjective.Lambdarank.Ranked
import RankObjective.XendcgLoss

/-!
# Score shifts and sentinel documents

Both objectives read the scores of a query only through their differences: the pairwise one
through the stable sort, the best/worst guard and `delta_score`, the listwise one through the
softmax.  A common shift of the scores therefore changes nothing, in exact arithmetic, as long as
it creates no sentinel score (`kMinScore` is `-inf` in LightGBM, which no finite score meets).

Appending sentinel documents is another matter: `worst_idx` steps back over one sentinel only, so
with two of them `worst_score` is the sentinel itself and the regularisation of line 266 switches
on for a query whose other documents all tie.
-/

namespace RankObjective

/-- The softmax of the scores does not see a common shift. -/
theorem softmax_real_shift (score : ℕ → ℝ) (c : ℝ) (cnt i : ℕ) :
    softmax Libm.real (fun d ↦ score d + c) cnt i = softmax Libm.real score cnt i := by
  simp only [softmax, Libm.real_exp, Real.exp_add, ← Finset.sum_mul]
  exact mul_div_mul_right _ _ (Real.exp_pos c).ne'

/-- Moving every score of a query by the same constant changes neither objective's lambdas and
hessians nor the costs `LambdarankNDCG` adds to its buffers, when neither run holds a sentinel
score. -/
theorem getGradientsForOneQuery_shift_invariant {G : Type} (L : Libm ℝ) (R : Random ℝ G)
    (kMinScore c : ℝ) (Q : Query ℝ)
    (hs : ∀ d < Q.cnt, Q.score d ≠ kMinScore ∧ Q.score d + c ≠ kMinScore) :
    (∀ (o : LambdarankNDCG ℝ) (tid : ℕ) (lam₁ hess₁ lam₂ hess₂ : ℕ → ℝ),
      (∀ d < Q.cnt,
        (getGradientsForOneQuery L kMinScore o (Q.shift c) tid lam₁ hess₁).gradients d =
            (getGradientsForOneQuery L kMinScore o Q tid lam₂ hess₂).gradients d ∧
          (getGradientsForOneQuery L kMinScore o (Q.shift c) tid lam₁ hess₁).hessians d =
            (getGradientsForOneQuery L kMinScore o Q tid lam₂ hess₂).hessians d) ∧
        (getGradientsForOneQuery L kMinScore o (Q.shift c) tid lam₁ hess₁).state =
          (getGradientsForOneQuery L kMinScore o Q tid lam₂ hess₂).state) ∧
    ∀ (o : RankXENDCG ℝ G) (lam₁ hess₁ lam₂ hess₂ : ℕ → ℝ), ∀ d < Q.cnt,
      (o.getGradientsForOneQuery Libm.real R (Q.shift c) lam₁ hess₁).gradients d =
          (o.getGradientsForOneQuery Libm.real R Q lam₂ hess₂).gradients d ∧
        (o.getGradientsForOneQuery Libm.real R (Q.shift c) lam₁ hess₁).hessians d =
          (o.getGradientsForOneQuery Libm.real R Q lam₂ hess₂).hessians d :=
  ⟨fun o ↦ getGradientsForOneQuery_shift L kMinScore o Q c hs,
    fun o lam₁ hess₁ lam₂ hess₂ ↦ @xendcgOneQuery_congr_softmax ℝ G _ _ Libm.real R o o (Q.shift c)
      Q rfl (fun _ _ ↦ rfl) (fun i _ ↦ softmax_real_shift Q.score c Q.cnt i) rfl 0 0 lam₁ hess₁
      lam₂ hess₂⟩

/-- The query of two documents with labels and scores `1` and `0`, moved by `5`, with sentinel
`-1`: for the pairwise objective with steepness `1`, truncation level `2`, gains `[0, 1]`,
inverse max DCG `1` and bias powers `1`, whose first lambda is negative, and for the listwise one
with every draw `1 / 2`, whose first hessian is positive. -/
theorem getGradientsForOneQuery_shift_invariant_sample :
    let o : LambdarankNDCG ℝ := { (default : LambdarankNDCG ℝ) with
      sigmoid := 1
      truncationLevel := 2
      labelGain := [0, 1]
      sigmoidTable := constructSigmoidTable Libm.real 1
      inverseMaxDcgs := fun _ ↦ 1
      iBiasesPow := fun _ ↦ 1
      jBiasesPow := fun _ ↦ 1 }
    let R : Random ℝ ℕ := ⟨fun _ ↦ 0, fun n ↦ (1 / 2, n + 1)⟩
    let x : RankXENDCG ℝ ℕ := ⟨default, fun _ ↦ 0⟩
    let Q : Query ℝ := ⟨0, 2, fun d ↦ [1, 0].getD d 0, fun d ↦ [1, 0].getD d 0⟩
    let r := getGradientsForOneQuery Libm.real (-1) o Q 0 (fun _ ↦ 0) (fun _ ↦ 0)
    let s := x.getGradientsForOneQuery Libm.real R Q (fun _ ↦ 0) (fun _ ↦ 0)
    (getGradientsForOneQuery Libm.real (-1) o (Q.shift 5) 0 (fun _ ↦ 0) (fun _ ↦ 0)).gradients 0 =
        r.gradients 0 ∧ r.gradients 0 < 0 ∧
      (x.getGradientsForOneQuery Libm.real R (Q.shift 5) (fun _ ↦ 0) (fun _ ↦ 0)).hessians 0 =
        s.hessians 0 ∧ 0 < s.hessians 0 := by
  intro o R x Q r s
  have hs : ∀ d < Q.cnt, Q.score d ≠ -1 ∧ Q.score d + 5 ≠ -1 := fun d hd ↦ by
    have hd₂ : d < 2 := hd
    interval_cases d <;> norm_num [Q]
  obtain ⟨hl, hx⟩ := getGradientsForOneQuery_shift_invariant Libm.real R (-1) 5 Q hs
  have hs₀ : s.hessians 0 = softmax Libm.real Q.score 2 0 * (1 - softmax Libm.real Q.score 2 0) :=
    x.getGradientsForOneQuery_hessians Libm.real R Q _ _ le_rfl two_pos
  refine ⟨((hl o 0 _ _ _ _).1 0 two_pos).1, (getGradientsForOneQuery_two_documents (o := o)
    two_pos one_pos rfl rfl one_pos one_pos one_pos 0 _ _).2.1, (hx x _ _ _ _ 0 two_pos).2, ?_⟩
  rw [hs₀]
  exact mul_pos (softmax_real_pos Q.score two_pos)
    (sub_pos.mpr (softmax_real_lt_one _ le_rfl two_pos))

section Sentinels

/-- Two sentinel documents appended to a query of two tied documents with labels `1` and `0`:
`worst_idx` steps back over one sentinel only, so `worst_score` is the sentinel `-1`, where the
query alone has `worst_score = best_score = 0`.  Line 266 then divides `delta_pair_NDCG` by
`0.01 + |delta_score| = 0.01`, and the first document's lambda, which is not `0`, is multiplied by
`100`.  The object has steepness `1`, `lambdarank_unbiased` on and `lambdarank_norm` off, gains
`[0, 1]`, inverse max DCG `1` and the seeded bias powers `1`. -/
theorem getGradientsForOneQuery_two_sentinels :
    worstScore (-1) (⟨0, 2, fun d ↦ [1, 0].getD d 0, fun _ ↦ 0⟩ : Query ℝ) = 0 ∧
    worstScore (-1)
      (⟨0, 4, fun d ↦ [1, 0, 0, 0].getD d 0, fun d ↦ [0, 0, -1, -1].getD d 0⟩ : Query ℝ) = -1 ∧
    (getGradientsForOneQuery Libm.real (-1)
      { (default : LambdarankNDCG ℝ) with
        sigmoid := 1, unbiased := true, truncationLevel := 4, labelGain := [0, 1]
        sigmoidTable := constructSigmoidTable Libm.real 1, inverseMaxDcgs := fun _ ↦ 1
        iBiasesPow := fun _ ↦ 1, jBiasesPow := fun _ ↦ 1 }
      ⟨0, 4, fun d ↦ [1, 0, 0, 0].getD d 0, fun d ↦ [0, 0, -1, -1].getD d 0⟩ 0 0 0).gradients 0 =
      100 * (getGradientsForOneQuery Libm.real (-1)
        { (default : LambdarankNDCG ℝ) with
          sigmoid := 1, unbiased := true, truncationLevel := 4, labelGain := [0, 1]
          sigmoidTable := constructSigmoidTable Libm.real 1, inverseMaxDcgs := fun _ ↦ 1
          iBiasesPow := fun _ ↦ 1, jBiasesPow := fun _ ↦ 1 }
        ⟨0, 2, fun d ↦ [1, 0].getD d 0, fun _ ↦ 0⟩ 0 0 0).gradients 0 ∧
    (getGradientsForOneQuery Libm.real (-1)
      { (default : LambdarankNDCG ℝ) with
        sigmoid := 1, unbiased := true, truncationLevel := 4, labelGain := [0, 1]
        sigmoidTable := constructSigmoidTable Libm.real 1, inverseMaxDcgs := fun _ ↦ 1
        iBiasesPow := fun _ ↦ 1, jBiasesPow := fun _ ↦ 1 }
      ⟨0, 2, fun d ↦ [1, 0].getD d 0, fun _ ↦ 0⟩ 0 0 0).gradients 0 < 0 := by
  set o : LambdarankNDCG ℝ := { (default : LambdarankNDCG ℝ) with
    sigmoid := 1, unbiased := true, truncationLevel := 4, labelGain := [0, 1]
    sigmoidTable := constructSigmoidTable Libm.real 1, inverseMaxDcgs := fun _ ↦ 1
    iBiasesPow := fun _ ↦ 1, jBiasesPow := fun _ ↦ 1 }
  set Q : Query ℝ := ⟨0, 2, fun d ↦ [1, 0].getD d 0, fun _ ↦ 0⟩
  set Q' : Query ℝ := ⟨0, 4, fun d ↦ [1, 0, 0, 0].getD d 0, fun d ↦ [0, 0, -1, -1].getD d 0⟩
  have hs : sortedIdx Q = [0, 1] := by
    simp [Q, sortedIdx, List.mergeSort, List.merge, List.range_succ]
  have hs' : sortedIdx Q' = [0, 1, 2, 3] := by
    simp [Q', sortedIdx, List.mergeSort, List.merge, List.range_succ]
  have hw' : worstIdx (-1) Q' = 2 := by
    simp only [worstIdx, docAt, hs']
    norm_num [Q']
  have hT : o.truncationLevel = 4 := rfl
  have hp : pairsOf (-1) o Q = [(0, 1)] := by
    simp [pairsOf, contributingPairs, hT, show Q.cnt = 2 from rfl, List.range_succ,
      List.range'_succ, pairRanks, docAt, hs,
      show Q.score = fun _ ↦ 0 from rfl, show Q.label = fun d ↦ [1, 0].getD d 0 from rfl]
  have hp' : pairsOf (-1) o Q' = [(0, 1)] := by
    simp [pairsOf, contributingPairs, hT, show Q'.cnt = 4 from rfl, List.range_succ,
      List.range'_succ, pairRanks, docAt, hs', show Q'.score = fun d ↦ [0, 0, -1, -1].getD d 0 from rfl,
      show Q'.label = fun d ↦ [1, 0, 0, 0].getD d 0 from rfl]
  have hgrad : ∀ P : Query ℝ, pairsOf (-1) o P = [(0, 1)] → docAt P 0 = 0 → docAt P 1 = 1 →
      0 < P.cnt → (getGradientsForOneQuery Libm.real (-1) o P 0 0 0).gradients 0 =
        pairLambda Libm.real (-1) o P 0 1 := fun P hP h₀ h₁ hc ↦ by
    rw [(getGradientsForOneQuery_apply Libm.real (-1) o P 0 0 0 0).1, if_pos hc,
      (pairLoopFrom_apply Libm.real (-1) o P 0 0 0 0).1, if_pos hc, hP, normFactor,
      if_neg (by simp [o])]
    simp [h₀, h₁]
  have hl₁ : labelGainAt ([0, 1] : List ℝ) 1 = 1 := by
    simpa using labelGainAt_natCast ([0, 1] : List ℝ) 1
  have hl₀ : labelGainAt ([0, 1] : List ℝ) 0 = 0 := by
    simpa using labelGainAt_natCast ([0, 1] : List ℝ) 0
  have hw₂ : worstScore (-1) Q' = -1 := by
    simp only [worstScore, hw', docAt, hs']
    rfl
  have hΔ : deltaPairNDCG Libm.real (-1) o Q 0 1 =
      |getDiscount Libm.real 0 - getDiscount Libm.real 1| := by
    simp [deltaPairNDCG, docAt, hs, show worstScore (-1) Q = bestScore Q from rfl, o, hl₀, hl₁,
      show Q.label = fun d ↦ [1, 0].getD d 0 from rfl]
  have hΔ' : deltaPairNDCG Libm.real (-1) o Q' 0 1 =
      100 * |getDiscount Libm.real 0 - getDiscount Libm.real 1| := by
    simp [deltaPairNDCG, docAt, hs', hw₂, bestScore, deltaScore, o, hl₀, hl₁,
      show Q'.label = fun d ↦ [1, 0, 0, 0].getD d 0 from rfl,
      show Q'.score = fun d ↦ [0, 0, -1, -1].getD d 0 from rfl]
    ring
  have hσ : pairSigmoid o Q' 0 1 = pairSigmoid o Q 0 1 := by
    simp [pairSigmoid, deltaScore, docAt, hs, hs',
      show Q'.score = fun d ↦ [0, 0, -1, -1].getD d 0 from rfl, show Q.score = fun _ ↦ 0 from rfl]
  have hσpos : 0 < pairSigmoid o Q 0 1 := getSigmoid_real_pos one_pos _
  have hδ : 0 < |getDiscount Libm.real 0 - getDiscount Libm.real 1| :=
    abs_pos.mpr (sub_ne_zero.mpr (getDiscount_real_lt Nat.zero_lt_one).ne')
  rw [hgrad Q hp (by rw [docAt, hs]; rfl) (by rw [docAt, hs]; rfl) (by decide),
    hgrad Q' hp' (by rw [docAt, hs']; rfl) (by rw [docAt, hs']; rfl) (by decide)]
  refine ⟨rfl, hw₂, ?_, ?_⟩
  · simp only [pairLambda, hσ, hΔ, hΔ']
    ring
  · simp only [pairLambda, hΔ]
    exact mul_neg_of_pos_of_neg hσpos (by simpa [o] using hδ)

end Sentinels

end RankObjective
