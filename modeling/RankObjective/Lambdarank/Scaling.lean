import RankObjective.Lambdarank.Bias
import RankObjective.Lambdarank.Hessians

/-!
# Training does not see the scale of the gain table, nor the steepness apart from the scores

The gain table enters `GetGradientsForOneQuery` only through `dcg_gap * inverse_max_dcg`, and
`Init` caches `inverse_max_dcg` as the inverse of a DCG built from the same table.  Multiplying
the table by `a > 0` multiplies the gap by `a` and the cached inverse by `1 / a`, so every pair
keeps its weight: an object built with the scaled table, run through any sequence of
`GetGradients` calls, writes the same gradients and hessians at every call as the object built
with the table itself.

The steepness `sigmoid_` scales the score gaps only: without `lambdarank_norm` and
`lambdarank_unbiased`, which regularise by the raw gap and normalise by the lambdas' sum, the
routine with steepness `sigmoid_ / a` on the scores multiplied by `a` writes the lambdas divided
by `a` and the hessians divided by `a²`, exactly the chain rule of the rescaled surrogate, the
sigmoid table included.
-/

namespace RankObjective

variable {K : Type} [LinearOrderedField K] [FloorRing K]

/-- The objective as the boosting loop uses it: `GetGradients` once per entry of `calls` (the
score vector, the schedule of the parallel loop, and the gradient and hessian arrays the caller
hands in), each call on the state the previous one left; the gradients and hessians of every
call. -/
def LambdarankNDCG.train (L : Libm K) (kMinScore : K) :
    LambdarankNDCG K → List ((ℕ → K) × List (ℕ × ℕ) × (ℕ → K) × (ℕ → K)) →
      List ((ℕ → K) × (ℕ → K))
  | _, [] => []
  | o, (score, schedule, gradients, hessians) :: calls =>
    let r := o.getGradients L kMinScore score schedule gradients hessians
    (r.gradients, r.hessians) :: LambdarankNDCG.train L kMinScore r.state calls

/-- The gain table multiplied by `a`. -/
def scaleGains (a : K) (labelGain : List K) : List K := labelGain.map (a * ·)

/-- The object with its gain table multiplied by `a` and its cached inverse ideal DCGs divided
by `a`. -/
def LambdarankNDCG.scaleGains (a : K) (o : LambdarankNDCG K) : LambdarankNDCG K :=
  { o with
    labelGain := RankObjective.scaleGains a o.labelGain
    inverseMaxDcgs := fun q ↦ o.inverseMaxDcgs q / a }

section Gains

variable (a : K)

theorem labelGainAt_scaleGains (labelGain : List K) (label : K) :
    labelGainAt (scaleGains a labelGain) label = a * labelGainAt labelGain label := by
  unfold labelGainAt scaleGains
  cases truncInt label with
  | ofNat n =>
    simp only [List.getD_eq_getElem?_getD, List.getElem?_map]
    cases labelGain[n]? <;> simp
  | negSucc n => simp

theorem calMaxDCGAtK_scaleGains (L : Libm K) (labelGain : List K) (k cnt : ℕ) (label : ℕ → K) :
    calMaxDCGAtK L (scaleGains a labelGain) k cnt label = a * calMaxDCGAtK L labelGain k cnt label := by
  simp only [calMaxDCGAtK, labelGainAt_scaleGains, mul_assoc, List.sum_map_mul_left]

theorem checkLabel_scaleGains (labelGain : List K) (numData : ℕ) (label : ℕ → K) :
    checkLabel (scaleGains a labelGain) numData label = checkLabel labelGain numData label := by
  simp only [checkLabel, scaleGains, List.length_map]

/-- Over `ℝ`, with a non-negative table, the cached inverse of the ideal DCG scales by `1 / a`. -/
theorem inverseMaxDcg_real_scaleGains {a : ℝ} (ha : 0 < a) {labelGain : List ℝ}
    (hgain : ∀ g ∈ labelGain, 0 ≤ g) (T cnt : ℕ) (label : ℕ → ℝ) :
    inverseMaxDcg Libm.real (scaleGains a labelGain) T cnt label =
      inverseMaxDcg Libm.real labelGain T cnt label / a := by
  have hm := calMaxDCGAtK_real_nonneg hgain T cnt label
  simp only [inverseMaxDcg, calMaxDCGAtK_scaleGains]
  by_cases h : 0 < calMaxDCGAtK Libm.real labelGain T cnt label
  · rw [if_pos (mul_pos ha h), if_pos h, div_div, mul_comm]
  · rw [le_antisymm (not_lt.mp h) hm, mul_zero, if_neg (lt_irrefl 0), zero_div]

end Gains

section Step

variable (L : Libm K) (kMinScore : K) {a : K} (ha : a ≠ 0) (o : LambdarankNDCG K) (Q : Query K)
include ha

/-- Each pair keeps its weight: the gap scales by `a` and the cached inverse by `1 / a`. -/
theorem deltaPairNDCG_scaleGains (highRank lowRank : ℕ) :
    deltaPairNDCG L kMinScore (o.scaleGains a) Q highRank lowRank =
      deltaPairNDCG L kMinScore o Q highRank lowRank := by
  have h : ∀ gh gl D inv : K, (a * gh - a * gl) * D * (inv / a) = (gh - gl) * D * inv :=
    fun gh gl D inv ↦ by field_simp; ring
  simp only [deltaPairNDCG, LambdarankNDCG.scaleGains, labelGainAt_scaleGains, h]

theorem accumulatePair_scaleGains :
    accumulatePair L kMinScore (o.scaleGains a) Q = accumulatePair L kMinScore o Q := by
  funext acc highRank lowRank
  simp only [accumulatePair, pairLambda, pairHessian, pairCost, pairSigmoid,
    deltaPairNDCG_scaleGains L kMinScore ha]
  rfl

theorem pairLoopFrom_scaleGains (tid : ℕ) (lambdas hessians : ℕ → K) :
    pairLoopFrom L kMinScore (o.scaleGains a) Q tid lambdas hessians =
      pairLoopFrom L kMinScore o Q tid lambdas hessians := by
  simp only [pairLoopFrom, pairLoop, pairStep, accumulatePair_scaleGains L kMinScore ha]
  rfl

/-- One query: the same outputs, and the object's cost buffers changed as without the scaling. -/
theorem getGradientsForOneQuery_scaleGains (tid : ℕ) (lambdas hessians : ℕ → K) :
    getGradientsForOneQuery L kMinScore (o.scaleGains a) Q tid lambdas hessians =
      ⟨(getGradientsForOneQuery L kMinScore o Q tid lambdas hessians).gradients,
        (getGradientsForOneQuery L kMinScore o Q tid lambdas hessians).hessians,
        (getGradientsForOneQuery L kMinScore o Q tid lambdas hessians).state.scaleGains a⟩ := by
  simp only [getGradientsForOneQuery, pairLoopFrom_scaleGains L kMinScore ha]
  rfl

omit ha in
/-- The dispatcher over any schedule, from any arrays. -/
theorem getGradients_lambdarankOneQuery_scaleGains (ha : a ≠ 0) (b : RankingObjective K) (score : ℕ → K) :
    ∀ (schedule : List (ℕ × ℕ)) (gradients hessians : ℕ → K) (o : LambdarankNDCG K),
      b.getGradients (lambdarankOneQuery L kMinScore) score schedule ⟨gradients, hessians, o.scaleGains a⟩ =
        ⟨(b.getGradients (lambdarankOneQuery L kMinScore) score schedule ⟨gradients, hessians, o⟩).gradients,
          (b.getGradients (lambdarankOneQuery L kMinScore) score schedule ⟨gradients, hessians, o⟩).hessians,
          (b.getGradients (lambdarankOneQuery L kMinScore) score schedule
            ⟨gradients, hessians, o⟩).state.scaleGains a⟩
  | [], _, _, _ => rfl
  | p :: schedule, gradients, hessians, o => by
    simp only [RankingObjective.getGradients_cons, RankingObjective.queryStep, lambdarankOneQuery,
      getGradientsForOneQuery_scaleGains L kMinScore ha]
    exact getGradients_lambdarankOneQuery_scaleGains ha b score schedule _ _ _

/-- One `GetGradients` call: the same gradients and hessians, and the next state is the scaled
next state. -/
theorem LambdarankNDCG.getGradients_scaleGains (score : ℕ → K) (schedule : List (ℕ × ℕ))
    (gradients hessians : ℕ → K) :
    (o.scaleGains a).getGradients L kMinScore score schedule gradients hessians =
      ⟨(o.getGradients L kMinScore score schedule gradients hessians).gradients,
        (o.getGradients L kMinScore score schedule gradients hessians).hessians,
        (o.getGradients L kMinScore score schedule gradients hessians).state.scaleGains a⟩ := by
  unfold LambdarankNDCG.getGradients
  rw [show (o.scaleGains a).toRankingObjective = o.toRankingObjective from rfl,
    show (o.scaleGains a).unbiased = o.unbiased from rfl,
    getGradients_lambdarankOneQuery_scaleGains L kMinScore ha]
  cases o.unbiased <;> rfl

/-- Every run of calls writes the same gradients and hessians. -/
theorem train_scaleGains :
    ∀ (calls : List ((ℕ → K) × List (ℕ × ℕ) × (ℕ → K) × (ℕ → K))) (o : LambdarankNDCG K),
      LambdarankNDCG.train L kMinScore (o.scaleGains a) calls = LambdarankNDCG.train L kMinScore o calls
  | [], _ => rfl
  | (score, schedule, gradients, hessians) :: calls, o => by
    simp only [LambdarankNDCG.train, LambdarankNDCG.getGradients_scaleGains L kMinScore ha,
      train_scaleGains calls]

end Step

section Create

variable {a : ℝ} (ha : 0 < a) {config : Config ℝ} (hgain : ∀ g ∈ config.labelGain, 0 ≤ g)
include ha hgain

theorem ofBase_scaleGains (hne : config.labelGain ≠ []) (team : Option ℕ)
    (base : RankingObjective ℝ) :
    LambdarankNDCG.ofBase Libm.real { config with labelGain := scaleGains a config.labelGain } team base =
      (LambdarankNDCG.ofBase Libm.real config team base).scaleGains a := by
  have hne' : scaleGains a config.labelGain ≠ [] := by simpa [scaleGains] using hne
  simp only [LambdarankNDCG.ofBase, defaultLabelGain_of_ne_nil hne, defaultLabelGain_of_ne_nil hne',
    LambdarankNDCG.scaleGains, inverseMaxDcg_real_scaleGains ha hgain]

/-- Building with a non-empty table scaled fails as the build with the table fails, and otherwise
gives the scaled object. -/
theorem create_scaleGains (hne : config.labelGain ≠ []) (team : Option ℕ) (metadata : Metadata ℝ)
    (numData : ℕ) :
    LambdarankNDCG.create Libm.real { config with labelGain := scaleGains a config.labelGain } team
        metadata numData =
      (LambdarankNDCG.create Libm.real config team metadata numData).map (LambdarankNDCG.scaleGains a) := by
  have hne' : scaleGains a config.labelGain ≠ [] := by simpa [scaleGains] using hne
  simp only [LambdarankNDCG.create, defaultLabelGain_of_ne_nil hne, defaultLabelGain_of_ne_nil hne',
    checkLabel_scaleGains]
  split_ifs
  · rfl
  · cases RankingObjective.init config.objectiveSeed metadata numData with
    | error e => rfl
    | ok base =>
      simp only [bind, Except.bind, pure, Except.pure]
      split_ifs
      · rfl
      · rw [ofBase_scaleGains ha hgain hne]
        rfl

/-- Multiplying the gain table by `a > 0` changes no training run: over `ℝ` with a non-negative
table, building the objective with the scaled table fails exactly when building it with the table
fails, and otherwise every sequence of `GetGradients` calls, with any scores, schedules and
arrays, writes the same gradients and hessians at every call.  An empty table is its own scaling,
and both builds take the default gains.  The schedules range over teams of any size, as the model's buffers have a row for every thread;
the code has `num_threads_` rows, and with `lambdarank_unbiased` on a thread from `num_threads_` on
writes past them, so for the code the statement speaks of teams of at most `num_threads_`
threads, or of `lambdarank_unbiased` off. -/
theorem create_train_scaleGains (kMinScore : ℝ) (team : Option ℕ) (metadata : Metadata ℝ)
    (numData : ℕ) :
    (LambdarankNDCG.create Libm.real { config with labelGain := scaleGains a config.labelGain } team
        metadata numData).map (LambdarankNDCG.train Libm.real kMinScore) =
      (LambdarankNDCG.create Libm.real config team metadata numData).map
        (LambdarankNDCG.train Libm.real kMinScore) := by
  by_cases hne : config.labelGain = []
  · have hc : { config with labelGain := scaleGains a config.labelGain } = config := by
      cases config
      subst hne
      rfl
    rw [hc]
  rw [create_scaleGains ha hgain hne]
  cases LambdarankNDCG.create Libm.real config team metadata numData with
  | error e => rfl
  | ok o => exact congrArg Except.ok (funext fun calls ↦ train_scaleGains Libm.real kMinScore ha.ne' calls o)

end Create

/-- The query with every score multiplied by `a`. -/
def Query.scale (Q : Query K) (a : K) : Query K :=
  { Q with score := fun d ↦ a * Q.score d }

/-- The object with steepness `sigmoid_ / a` and the sigmoid table `ConstructSigmoidTable` builds
for it. -/
def LambdarankNDCG.divSigmoid (L : Libm K) (o : LambdarankNDCG K) (a : K) : LambdarankNDCG K :=
  { o with sigmoid := o.sigmoid / a, sigmoidTable := constructSigmoidTable L (o.sigmoid / a) }

omit [FloorRing K] in
/-- The stable sort compares scores only, so a positive factor leaves the ranking as it was. -/
theorem docAt_scale {a : K} (ha : 0 < a) (Q : Query K) (r : ℕ) : docAt (Q.scale a) r = docAt Q r := by
  simp only [docAt, sortedIdx, Query.scale, mul_le_mul_left ha]

section Steepness

variable (L : Libm K) (kMinScore : K) {a : K} (ha : 0 < a) (o : LambdarankNDCG K) (Q : Query K)
include ha

omit [FloorRing K] in
theorem pairRanks_scale : pairRanks (a * kMinScore) (Q.scale a) = pairRanks kMinScore Q := by
  funext i j
  simp only [pairRanks, docAt_scale ha Q]
  simp only [Query.scale, mul_right_inj' ha.ne']

omit [FloorRing K] in
theorem pairsOf_scale :
    pairsOf (a * kMinScore) (o.divSigmoid L a) (Q.scale a) = pairsOf kMinScore o Q := by
  simp only [pairsOf, contributingPairs, pairRanks_scale kMinScore ha Q, docAt_scale ha Q]
  simp only [Query.scale, LambdarankNDCG.divSigmoid, mul_right_inj' ha.ne']

variable (hn : o.norm = false) (hu : o.unbiased = false)
  (ht : o.sigmoidTable = constructSigmoidTable L o.sigmoid)
include hn hu ht

theorem pairLambda_scale (highRank lowRank : ℕ) :
    pairLambda L (a * kMinScore) (o.divSigmoid L a) (Q.scale a) highRank lowRank =
      pairLambda L kMinScore o Q highRank lowRank / a ∧
    pairHessian L (a * kMinScore) (o.divSigmoid L a) (Q.scale a) highRank lowRank =
      pairHessian L kMinScore o Q highRank lowRank / (a * a) := by
  have hs : pairSigmoid (o.divSigmoid L a) (Q.scale a) highRank lowRank =
      pairSigmoid o Q highRank lowRank := by
    rw [pairSigmoid, pairSigmoid, ht, deltaScore, deltaScore, docAt_scale ha Q, docAt_scale ha Q]
    simp only [LambdarankNDCG.divSigmoid, Query.scale, ← mul_sub,
      getSigmoid_constructSigmoidTable_div L o.sigmoid ha]
  have hd : deltaPairNDCG L (a * kMinScore) (o.divSigmoid L a) (Q.scale a) highRank lowRank =
      deltaPairNDCG L kMinScore o Q highRank lowRank := by
    simp only [deltaPairNDCG, LambdarankNDCG.divSigmoid, hn, hu, docAt_scale ha Q,
      Bool.false_eq_true, or_self, false_and, if_false]
    rfl
  simp only [pairLambda, pairHessian, hs, hd]
  constructor <;> simp only [LambdarankNDCG.divSigmoid] <;> ring

/-- Steepness `sigmoid_ / a` on the scores multiplied by `a > 0`, with the sentinel moved along:
without `lambdarank_norm` and `lambdarank_unbiased` every lambda of the query is divided by `a`
and every hessian by `a²`. -/
theorem getGradientsForOneQuery_scale (tid : ℕ) (lambdas hessians : ℕ → K) :
    ∀ d < Q.cnt,
      (getGradientsForOneQuery L (a * kMinScore) (o.divSigmoid L a) (Q.scale a) tid lambdas
          hessians).gradients d =
        (getGradientsForOneQuery L kMinScore o Q tid lambdas hessians).gradients d / a ∧
      (getGradientsForOneQuery L (a * kMinScore) (o.divSigmoid L a) (Q.scale a) tid lambdas
          hessians).hessians d =
        (getGradientsForOneQuery L kMinScore o Q tid lambdas hessians).hessians d / (a * a) := by
  intro d hd
  have hnf : ∀ o' : LambdarankNDCG K, o'.norm = false → ∀ acc, normFactor L o' acc = 1 :=
    fun o' h acc ↦ by simp [normFactor, h]
  obtain ⟨g₁, h₁, -⟩ := getGradientsForOneQuery_apply L (a * kMinScore) (o.divSigmoid L a)
    (Q.scale a) tid lambdas hessians d
  obtain ⟨g₂, h₂, -⟩ := getGradientsForOneQuery_apply L kMinScore o Q tid lambdas hessians d
  obtain ⟨l₁, l₁', -⟩ := pairLoopFrom_apply L (a * kMinScore) (o.divSigmoid L a) (Q.scale a) tid
    lambdas hessians d
  obtain ⟨l₂, l₂', -⟩ := pairLoopFrom_apply L kMinScore o Q tid lambdas hessians d
  have hd' : d < (Q.scale a).cnt := hd
  rw [g₁, g₂, h₁, h₂, l₁, l₂, l₁', l₂', hnf (o.divSigmoid L a) hn, hnf o hn,
    pairsOf_scale L kMinScore ha]
  simp only [if_pos hd, if_pos hd', docAt_scale ha Q, (pairLambda_scale L kMinScore ha o Q hn hu ht _ _).1,
    (pairLambda_scale L kMinScore ha o Q hn hu ht _ _).2, div_eq_mul_inv, zero_add, mul_one]
  constructor
  · rw [← List.sum_map_mul_right]
    congr 1
    exact List.map_congr_left fun p _ ↦ by split_ifs <;> ring
  · rw [← List.sum_map_mul_right]
    congr 1
    exact List.map_congr_left fun p _ ↦ by split_ifs <;> ring

end Steepness

/-- Steepness `1` on the query of two documents with labels and scores `1` and `0`, for truncation
level `2`, gains `[0, 1]`, inverse max DCG `1` and bias powers `1`, against steepness `1 / 2` on the
scores doubled: the first document's lambda, which is negative, is halved. -/
theorem getGradientsForOneQuery_scale_double :
    let o : LambdarankNDCG ℝ := { (default : LambdarankNDCG ℝ) with
      sigmoid := 1
      truncationLevel := 2
      labelGain := [0, 1]
      sigmoidTable := constructSigmoidTable Libm.real 1
      inverseMaxDcgs := fun _ ↦ 1
      iBiasesPow := fun _ ↦ 1
      jBiasesPow := fun _ ↦ 1 }
    let Q : Query ℝ := ⟨0, 2, fun d ↦ [1, 0].getD d 0, fun d ↦ [1, 0].getD d 0⟩
    let r := getGradientsForOneQuery Libm.real (-1) o Q 0 (fun _ ↦ 0) (fun _ ↦ 0)
    (getGradientsForOneQuery Libm.real (2 * -1) (o.divSigmoid Libm.real 2) (Q.scale 2) 0
        (fun _ ↦ 0) (fun _ ↦ 0)).gradients 0 = r.gradients 0 / 2 ∧ r.gradients 0 < 0 := by
  intro o Q r
  exact ⟨(getGradientsForOneQuery_scale Libm.real (-1) two_pos o Q rfl rfl rfl 0 _ _ 0 two_pos).1,
    (getGradientsForOneQuery_two_documents (o := o) two_pos one_pos rfl rfl one_pos one_pos one_pos
      0 _ _).2.1⟩

/-- The gains `[0, 1, 3]` and `[0, 2, 6]` train alike. -/
theorem create_train_scaleGains_double :
    (LambdarankNDCG.create Libm.real ⟨0, 1, false, 3, true, 1, scaleGains 2 [0, 1, 3]⟩ none
        ⟨fun d ↦ [1, 2, 0].getD d 0, none, some (3 * ·), 1⟩ 3).map
        (LambdarankNDCG.train Libm.real (-1)) =
      (LambdarankNDCG.create Libm.real ⟨0, 1, false, 3, true, 1, [0, 1, 3]⟩ none
        ⟨fun d ↦ [1, 2, 0].getD d 0, none, some (3 * ·), 1⟩ 3).map
        (LambdarankNDCG.train Libm.real (-1)) :=
  @create_train_scaleGains 2 two_pos ⟨0, 1, false, 3, true, 1, [0, 1, 3]⟩ (by simp) (-1) none _ 3

end RankObjective
