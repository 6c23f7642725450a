import RankObjective.Lambdarank.Unbiased
import RankObjective.Lambdarank.Ranked

/-!
# The lambdas of a query balance, and sentinel documents get nothing

Every pair the loop visits adds its lambda to one document of the query and takes it from another,
and the normalisation scales the whole slice by one factor, so the lambdas of a query sum to zero.
A document holding `kMinScore` is in no pair and keeps the zero the routine starts from, also after
the dispatcher weighs it.

Both are stated where the bias powers the loop divides by are non-zero, the only states in which
the model's arithmetic is the code's.  A run of `GetGradients` calls reaches a zero one: after the
first call of the run of `run_sample` rank `1` has `j` bias power `0`, and the next call divides a
non-zero numerator by it at line 325.  The code then writes infinite lambdas, whose sum is NaN, and
with `lambdarank_norm` a NaN normalisation factor that turns a sentinel's `0` into NaN.
-/

namespace RankObjective

variable {K : Type} [LinearOrderedField K] [FloorRing K]

section LambdaSums

variable (L : Libm K) (kMinScore : K)

/-- The lambdas a query receives sum to zero, for any flags, inverse ideal DCG and non-zero bias
powers at the ranks the loop reads: every pair moves its lambda from one document of the query to
another, and the normalisation scales the whole slice by one factor. -/
theorem getGradientsForOneQuery_lambdas_sum_zero (o : LambdarankNDCG K) (Q : Query K)
    (tid : ℕ) (lambdas hessians : ℕ → K) :
    BiasesPowNonzero kMinScore o Q → ∑ d in Finset.range Q.cnt,
      (getGradientsForOneQuery L kMinScore o Q tid lambdas hessians).gradients d = 0 := fun _ ↦ by
  rw [Finset.sum_congr rfl fun d hd ↦ by
    rw [(getGradientsForOneQuery_apply L kMinScore o Q tid lambdas hessians d).1,
      if_pos (Finset.mem_range.mp hd), (pairLoopFrom_apply L kMinScore o Q tid lambdas hessians d).1,
      if_pos (Finset.mem_range.mp hd), zero_add], ← Finset.sum_mul,
    sum_range_transfers _ _ _ _ _ fun p hp ↦ docAt_pairsOf_lt kMinScore o Q hp, zero_mul]

end LambdaSums

/-- The two-document query on an object with truncation level `2`, steepness `1` and its table,
gains `[0, 1]`, inverse ideal DCG `1` (what `Init` computes for it) and bias powers `1`: a negative
lambda and a positive one that sum to zero. -/
theorem getGradientsForOneQuery_lambdas_sum_zero_pair :
    let o : LambdarankNDCG ℝ := { (default : LambdarankNDCG ℝ) with
      sigmoid := 1
      truncationLevel := 2
      labelGain := [0, 1]
      sigmoidTable := constructSigmoidTable Libm.real 1
      inverseMaxDcgs := fun _ ↦ 1
      iBiasesPow := fun _ ↦ 1
      jBiasesPow := fun _ ↦ 1 }
    let Q : Query ℝ := ⟨0, 2, fun d ↦ [1, 0].getD d 0, fun d ↦ [1, 0].getD d 0⟩
    let r := getGradientsForOneQuery Libm.real (-1) o Q 0 (fun _ ↦ 0) (fun _ ↦ 0)
    BiasesPowNonzero (-1) o Q ∧ r.gradients 0 < 0 ∧
      ∑ d in Finset.range Q.cnt, r.gradients d = 0 := by
  intro o Q r
  have hbias : BiasesPowNonzero (-1) o Q := fun _ _ ↦ ⟨one_ne_zero, one_ne_zero⟩
  exact ⟨hbias, (getGradientsForOneQuery_two_documents (o := o) two_pos one_pos rfl rfl one_pos
    one_pos one_pos 0 _ _).2.1,
    getGradientsForOneQuery_lambdas_sum_zero Libm.real (-1) o Q 0 _ _ hbias⟩

omit [FloorRing K] in
/-- The pairs of a query of three documents once the truncation level reaches `2`: those of rank
`0` with ranks `1` and `2`, then that of rank `1` with rank `2`, each unless a sentinel holds the
higher rank. -/
theorem contributingPairs_three (kMinScore : K) (Q : Query K) {T : ℕ} (hc : Q.cnt = 3)
    (hT : 2 ≤ T) :
    contributingPairs kMinScore Q T =
      (if Q.score (docAt Q 0) = kMinScore then [] else [1, 2].filterMap (pairRanks kMinScore Q 0)) ++
        if Q.score (docAt Q 1) = kMinScore then [] else [2].filterMap (pairRanks kMinScore Q 1) := by
  rw [contributingPairs, hc, show min (3 - 1) T = 2 by omega]
  simp [List.range_succ, show List.range' 1 2 = [1, 2] from rfl]

section ZeroBias

/-- The call after the first one of the run of `run_sample`, on the scores `[50, 100, x]` with
`x < 50`: ranks `0`, `1` and `2` hold the documents of labels `2`, `1` and `0`, the loop visits the
pair `(0, 1)`, whose low rank is `1`, and line 325 has a positive `p_lambda` and a negative
numerator `-sigmoid_ * delta_pair_NDCG / i_biases_pow_[0]` there. -/
theorem second_call_sample (norm : Bool) {x : ℝ} (hx : x < 50) :
    let o := initPositionBiasesAndGradients (LambdarankNDCG.ofBase Libm.real
      ⟨0, 1, norm, 3, true, 1, [0, 1, 3]⟩ none ⟨0, 1, 3, fun d ↦ [1, 2, 0].getD d 0, none, (3 * ·)⟩)
    let o₁ := (o.getGradients Libm.real (-1) (fun d ↦ [100, 50, 0].getD d 0) [(0, 0)] (fun _ ↦ 0)
      (fun _ ↦ 0)).state
    let Q := o₁.query (fun d ↦ [50, 100, x].getD d 0) 0
    Q.cnt = 3 ∧ docAt Q 0 = 1 ∧ docAt Q 1 = 0 ∧ docAt Q 2 = 2 ∧ (0, 1) ∈ pairsOf (-1) o₁ Q ∧
      0 < pairSigmoid o₁ Q 0 1 ∧
      -o₁.sigmoid * deltaPairNDCG Libm.real (-1) o₁ Q 0 1 / o₁.iBiasesPow 0 < 0 := by
  intro o o₁ Q
  obtain ⟨-, -, hinv, -⟩ := query_sample norm
  obtain ⟨-, -, -, -, -, -, hi₀, -⟩ := run_sample norm
  have hQ : Q = ⟨0, 3, fun d ↦ [1, 2, 0].getD d 0, fun d ↦ [50, 100, x].getD d 0⟩ :=
    show o.query _ 0 = _ by
      simp [RankingObjective.query, RankingObjective.cnt, RankingObjective.start, o,
        initPositionBiasesAndGradients, LambdarankNDCG.ofBase]
  have hl : Q.label 0 = ((1 : ℕ) : ℝ) ∧ Q.label 1 = ((2 : ℕ) : ℝ) := by norm_num [hQ]
  have hs : sortedIdx Q = [1, 0, 2] := by
    refine (eq_sortedIdx Q (by rw [hQ]; exact (by decide : ([1, 0, 2] : List ℕ).Perm (List.range 3)))
      ?_).symm
    rw [hQ]
    norm_num [RanksBefore, hx, hx.trans (by norm_num : (50 : ℝ) < 100)]
  have d₀ : docAt Q 0 = 1 := by rw [docAt, hs]; rfl
  have d₁ : docAt Q 1 = 0 := by rw [docAt, hs]; rfl
  have d₂ : docAt Q 2 = 2 := by rw [docAt, hs]; rfl
  have hδ : 0 < deltaPairNDCG Libm.real (-1) o₁ Q 0 1 := by
    refine deltaPairNDCG_real_pos (-1) o₁ Q ?_ zero_ne_one (by rw [hQ]; exact hinv)
    rw [show o₁.labelGain = [0, 1, 3] from rfl, d₀, d₁, hl.1, hl.2, labelGainAt_natCast,
      labelGainAt_natCast]
    norm_num
  refine ⟨by rw [hQ], d₀, d₁, d₂, (mem_contributingPairs (-1) Q).mpr ⟨0, 1, ?_⟩, ?_, ?_⟩
  · rw [hQ] at d₀ d₁ ⊢
    refine ⟨by simp [show o₁.truncationLevel = 3 from rfl], by rw [d₀]; norm_num, zero_lt_one,
      by norm_num, ?_⟩
    simp only [pairRanks, d₀, d₁]
    norm_num
  · exact getSigmoid_real_pos one_pos _
  · rw [hi₀, div_one, show o₁.sigmoid = 1 from rfl, neg_one_mul]
    exact neg_neg_of_pos hδ

/-- On a state a run reaches, `GetGradientsForOneQuery` divides a non-zero `p_lambda` by a zero
bias power: the second call of the run of `run_sample`, on the scores `[50, 100, 0]`, visits the
pair `(0, 1)`, whose low rank `1` the first call left with `j` bias power `0`.  Line 325 then makes
`p_lambda` `-inf`, the two documents receive `-inf` and `+inf`, and their sum is NaN, not `0`. -/
theorem getGradientsForOneQuery_lambda_over_zero_bias :
    let o := initPositionBiasesAndGradients (LambdarankNDCG.ofBase Libm.real
      ⟨0, 1, false, 3, true, 1, [0, 1, 3]⟩ none ⟨0, 1, 3, fun d ↦ [1, 2, 0].getD d 0, none, (3 * ·)⟩)
    let o₁ := (o.getGradients Libm.real (-1) (fun d ↦ [100, 50, 0].getD d 0) [(0, 0)] (fun _ ↦ 0)
      (fun _ ↦ 0)).state
    let Q := o₁.query (fun d ↦ [50, 100, 0].getD d 0) 0
    Reachable Libm.real (-1) o₁ ∧ (0, 1) ∈ pairsOf (-1) o₁ Q ∧ o₁.jBiasesPow 1 = 0 ∧
      0 < pairSigmoid o₁ Q 0 1 ∧
      -o₁.sigmoid * deltaPairNDCG Libm.real (-1) o₁ Q 0 1 / o₁.iBiasesPow 0 < 0 := by
  obtain ⟨-, -, hr₁, -, -, -, -, -, hj₁⟩ := run_sample false
  obtain ⟨-, -, -, -, hp, hσ, hn⟩ := second_call_sample false (x := 0) (by norm_num)
  exact ⟨hr₁, hp, hj₁, hσ, hn⟩

end ZeroBias

section Sentinels

variable (L : Libm K) (kMinScore : K)

/-- A document holding `kMinScore` receives nothing from the pair loop: it is in no contributing
pair, so its cells keep the zero the routine starts from. -/
theorem getGradientsForOneQuery_kMinScore (o : LambdarankNDCG K) (Q : Query K) (tid : ℕ)
    (lambdas hessians : ℕ → K) {d : ℕ} (hd : d < Q.cnt) (hs : Q.score d = kMinScore) :
    (getGradientsForOneQuery L kMinScore o Q tid lambdas hessians).gradients d = 0 ∧
      (getGradientsForOneQuery L kMinScore o Q tid lambdas hessians).hessians d = 0 := by
  obtain ⟨hg, hh, -⟩ := getGradientsForOneQuery_apply L kMinScore o Q tid lambdas hessians d
  obtain ⟨hl, hh', -⟩ := pairLoopFrom_apply L kMinScore o Q tid lambdas hessians d
  have hne : ∀ p ∈ pairsOf kMinScore o Q, d ≠ docAt Q p.1 ∧ d ≠ docAt Q p.2 := fun p hp ↦ by
    obtain ⟨-, -, -, h₁, h₂, -⟩ := contributingPairs_spec kMinScore Q hp
    exact ⟨fun h ↦ h₁ (h ▸ hs), fun h ↦ h₂ (h ▸ hs)⟩
  rw [hg, hh, if_pos hd, if_pos hd, hl, hh', if_pos hd, if_pos hd]
  constructor <;>
  · rw [List.sum_eq_zero, add_zero, zero_mul]
    intro x hx
    obtain ⟨p, hp, rfl⟩ := List.mem_map.mp hx
    simp [(hne p hp).1, (hne p hp).2]

/-- Documents holding `kMinScore` get nothing, where the bias powers the loop reads are non-zero:
`GetGradientsForOneQuery` leaves them lambda and hessian `0`; the cost it adds to its buffer row
comes from the contributing pairs alone, none of which holds such a document; and after
`GetGradients` and its weighting they still hold `0`. -/
theorem kMinScore_documents_get_zero :
    (∀ (o : LambdarankNDCG K) (Q : Query K) (tid : ℕ) (lambdas hessians : ℕ → K) (d : ℕ),
      BiasesPowNonzero kMinScore o Q → d < Q.cnt → Q.score d = kMinScore →
        (getGradientsForOneQuery L kMinScore o Q tid lambdas hessians).gradients d = 0 ∧
          (getGradientsForOneQuery L kMinScore o Q tid lambdas hessians).hessians d = 0) ∧
    (∀ (o : LambdarankNDCG K) (Q : Query K) (tid : ℕ) (lambdas hessians : ℕ → K),
      BiasesPowNonzero kMinScore o Q →
        (getGradientsForOneQuery L kMinScore o Q tid lambdas hessians).state =
            o.withBuffers (Function.update o.iCostsBuffer tid fun r ↦
                o.iCostsBuffer tid r + queryICost L kMinScore o Q r)
              (Function.update o.jCostsBuffer tid fun r ↦
                o.jCostsBuffer tid r + queryJCost L kMinScore o Q r) ∧
          ∀ p ∈ pairsOf kMinScore o Q,
            Q.score (docAt Q p.1) ≠ kMinScore ∧ Q.score (docAt Q p.2) ≠ kMinScore) ∧
    (∀ (o : LambdarankNDCG K) (teamSize : ℕ) (schedule : List (ℕ × ℕ))
      (score gradients hessians : ℕ → K) (q d : ℕ),
      o.Partitions → IsSchedule o.numQueries teamSize schedule → q < o.numQueries →
        BiasesPowNonzero kMinScore o (o.query score q) → d < o.cnt q →
          score (o.start q + d) = kMinScore →
            (o.toRankingObjective.getGradients (lambdarankOneQuery L kMinScore) score schedule
                ⟨gradients, hessians, o⟩).gradients (o.start q + d) = 0 ∧
              (o.toRankingObjective.getGradients (lambdarankOneQuery L kMinScore) score schedule
                ⟨gradients, hessians, o⟩).hessians (o.start q + d) = 0) := by
  refine ⟨fun o Q tid lambdas hessians d _ hd hs ↦
    getGradientsForOneQuery_kMinScore L kMinScore o Q tid lambdas hessians hd hs,
    fun o Q tid lambdas hessians _ ↦
      ⟨getGradientsForOneQuery_state L kMinScore o Q tid lambdas hessians, fun p hp ↦ ?_⟩,
    fun o teamSize schedule score gradients hessians q d hb hs hq _ hd hsent ↦ ?_⟩
  · obtain ⟨-, -, -, h₁, h₂, -⟩ := contributingPairs_spec kMinScore Q hp
    exact ⟨h₁, h₂⟩
  · obtain ⟨s, -, tid, lam, hess, hg, hh⟩ := o.toRankingObjective.getGradients_of_inSlice_inv score
      (lambdarankOneQuery_frames L kMinScore) hb hq (x := o.start q + d)
      ⟨Nat.le_add_right _ _, Nat.add_lt_add_left hd _⟩ (fun _ ↦ True) (fun _ _ _ _ _ _ _ ↦ trivial)
      schedule ⟨gradients, hessians, o⟩ (fun _ ↦ hs.fst_lt) hs.nodup (hs.mem_iff.mpr hq) trivial
    rw [Nat.add_sub_cancel_left] at hg hh
    obtain ⟨h₀, h₀'⟩ := getGradientsForOneQuery_kMinScore L kMinScore s
      (o.toRankingObjective.query score q) tid lam hess hd hsent
    rw [hg, hh, lambdarankOneQuery, h₀, h₀']
    cases o.weights <;> simp [weighAt]

end Sentinels

/-- One query of three documents with labels `[1, 0, 0]` and scores `[1, 0, -1]`, the last one
holding the sentinel `-1`, on an object with `lambdarank_norm`, truncation level `3`, steepness
`1`, gains `[0, 1]`, inverse ideal DCG `1` and bias powers `1`: the routine writes the first
document a negative lambda and leaves the sentinel `0`, alone and through the dispatcher. -/
theorem kMinScore_documents_get_zero_witness :
    let o : LambdarankNDCG ℝ := { (default : LambdarankNDCG ℝ) with
      numQueries := 1
      numData := 3
      label := fun d ↦ [1, 0, 0].getD d 0
      queryBoundaries := (3 * ·)
      sigmoid := 1
      norm := true
      truncationLevel := 3
      labelGain := [0, 1]
      sigmoidTable := constructSigmoidTable Libm.real 1
      inverseMaxDcgs := fun _ ↦ 1
      iBiasesPow := fun _ ↦ 1
      jBiasesPow := fun _ ↦ 1 }
    let score : ℕ → ℝ := fun d ↦ [1, 0, -1].getD d 0
    let Q : Query ℝ := ⟨0, 3, fun d ↦ [1, 0, 0].getD d 0, score⟩
    let r := getGradientsForOneQuery Libm.real (-1) o Q 0 (fun _ ↦ 0) (fun _ ↦ 0)
    let g := o.toRankingObjective.getGradients (lambdarankOneQuery Libm.real (-1)) score [(0, 0)]
      ⟨fun _ ↦ 0, fun _ ↦ 0, o⟩
    BiasesPowNonzero (-1) o Q ∧ r.gradients 0 < 0 ∧ (r.gradients 2 = 0 ∧ r.hessians 2 = 0) ∧
      (g.gradients 2 = 0 ∧ g.hessians 2 = 0) := by
  intro o score Q r g
  have hbias : ∀ Q : Query ℝ, BiasesPowNonzero (-1) o Q := fun _ _ _ ↦ ⟨one_ne_zero, one_ne_zero⟩
  have hQ : Q.cnt = 3 ∧ Q.score 0 = 1 ∧ Q.score 1 = 0 ∧ Q.score 2 = -1 ∧
      Q.label 0 = ((1 : ℕ) : ℝ) ∧ Q.label 1 = ((0 : ℕ) : ℝ) := by norm_num [Q, score]
  have hs : sortedIdx Q = [0, 1, 2] := by
    refine (eq_sortedIdx Q (by decide) ?_).symm
    norm_num [RanksBefore, Q, score]
  have d₀ : docAt Q 0 = 0 := by rw [docAt, hs]; rfl
  have d₁ : docAt Q 1 = 1 := by rw [docAt, hs]; rfl
  have d₂ : docAt Q 2 = 2 := by rw [docAt, hs]; rfl
  have hp : pairsOf (-1) o Q = [(0, 1)] := by
    rw [pairsOf, show o.truncationLevel = 3 from rfl,
      contributingPairs_three (-1) Q hQ.1 (show 2 ≤ 3 by decide)]
    simp only [List.filterMap_cons, List.filterMap_nil, pairRanks, d₀, d₁, d₂]
    norm_num [score]
  have hδ : 0 < deltaPairNDCG Libm.real (-1) o Q 0 1 := by
    refine deltaPairNDCG_real_pos (-1) o Q ?_ zero_ne_one one_pos
    rw [show o.labelGain = [0, 1] from rfl, d₀, d₁, hQ.2.2.2.2.1, hQ.2.2.2.2.2, labelGainAt_natCast,
      labelGainAt_natCast]
    norm_num
  have hg₀ : r.gradients 0 < 0 := by
    have h := (getGradientsForOneQuery_single_pair Libm.real (-1) o Q hp 0 (fun _ ↦ 0)
      (fun _ ↦ 0)).1
    rw [d₀] at h
    rw [h]
    exact mul_neg_of_neg_of_pos (pairLambda_real_neg one_pos rfl hδ one_pos one_pos).1
      (normFactor_real_pos o _)
  exact ⟨hbias Q, hg₀, (kMinScore_documents_get_zero Libm.real (-1)).1 o Q 0 _ _ 2 (hbias Q)
    (by decide) hQ.2.2.2.1,
    (kMinScore_documents_get_zero Libm.real (-1)).2.2 o 1 [(0, 0)] score _ _ 0 2
      ⟨rfl, rfl, by decide⟩ ⟨List.Perm.refl _, by decide⟩ Nat.one_pos (hbias _) (by decide) rfl⟩

/-- With `lambdarank_norm` on, the sentinel document of a query can receive NaN on a state a run
reaches: the second call of the run of `run_sample` with `lambdarank_norm`, on the scores
`[50, 100, -1]`, has one pair, `(0, 1)`, whose low rank `1` the first call left with `j` bias power
`0`.  Line 325 makes its `p_lambda` `-inf`, so `sum_lambdas = -2 * p_lambda` is `+inf`, the factor
`log2(1 + sum_lambdas) / sum_lambdas` of lines 368-374 is NaN, and the sentinel document `2` gets
`0 * NaN`. -/
theorem kMinScore_document_over_zero_bias :
    let o := initPositionBiasesAndGradients (LambdarankNDCG.ofBase Libm.real
      ⟨0, 1, true, 3, true, 1, [0, 1, 3]⟩ none ⟨0, 1, 3, fun d ↦ [1, 2, 0].getD d 0, none, (3 * ·)⟩)
    let o₁ := (o.getGradients Libm.real (-1) (fun d ↦ [100, 50, 0].getD d 0) [(0, 0)] (fun _ ↦ 0)
      (fun _ ↦ 0)).state
    let Q := o₁.query (fun d ↦ [50, 100, -1].getD d 0) 0
    Reachable Libm.real (-1) o₁ ∧ o₁.norm = true ∧ 2 < Q.cnt ∧ Q.score 2 = -1 ∧
      pairsOf (-1) o₁ Q = [(0, 1)] ∧ o₁.jBiasesPow 1 = 0 ∧ 0 < pairSigmoid o₁ Q 0 1 ∧
      -o₁.sigmoid * deltaPairNDCG Libm.real (-1) o₁ Q 0 1 / o₁.iBiasesPow 0 < 0 := by
  intro o o₁ Q
  obtain ⟨-, -, hr₁, -, -, -, -, -, hj₁⟩ := run_sample true
  obtain ⟨hc, d₀, d₁, d₂, -, hσ, hn⟩ := second_call_sample true (x := -1) (by norm_num)
  have hQ : Q = ⟨0, 3, fun d ↦ [1, 2, 0].getD d 0, fun d ↦ [50, 100, -1].getD d 0⟩ :=
    show o.query _ 0 = _ by
      simp [RankingObjective.query, RankingObjective.cnt, RankingObjective.start, o,
        initPositionBiasesAndGradients, LambdarankNDCG.ofBase]
  have h₂ : Q.score 2 = -1 := by rw [hQ]; norm_num
  have hp : pairsOf (-1) o₁ Q = [(0, 1)] := by
    rw [pairsOf, show o₁.truncationLevel = 3 from rfl,
      contributingPairs_three (-1) Q hc (show 2 ≤ 3 by decide)]
    simp only [List.filterMap_cons, List.filterMap_nil, pairRanks, d₀, d₁, d₂, h₂]
    rw [hQ]
    norm_num
  exact ⟨hr₁, rfl, by rw [hc]; norm_num, h₂, hp, hj₁, hσ, hn⟩

end RankObjective
