import RankObjective.Lambdarank.Pairs

/-!
# What `GetGradientsForOneQuery` writes

Starting from zeroed outputs, the routine's lambdas, hessians and cost rows are closed sums over
`contributingPairs`, and its normalisation multiplies the slice by one factor.  From this: the
routine writes only its slice and overwrites it (`Frames`, `Overwrites`), a query of one pair
moves that pair's lambda from one document to the other, and a query whose usable documents share
one label gets nothing.
-/

namespace RankObjective

variable {K : Type} [LinearOrderedField K] [FloorRing K]

section Outputs

variable (L : Libm K) (kMinScore : K) (o : LambdarankNDCG K) (Q : Query K)

/-- `norm_factor` when the normalisation of lines 368-374 applies, `1` otherwise. -/
def normFactor (acc : PairLoop K) : K :=
  if o.norm = true ∧ 0 < acc.sumLambdas then L.log2 (1 + acc.sumLambdas) / acc.sumLambdas else 1

omit [FloorRing K] in
theorem normalizeLambdas_apply (acc : PairLoop K) (d : ℕ) :
    (normalizeLambdas L o Q acc).1 d =
        (if d < Q.cnt then acc.lambdas d * normFactor L o acc else acc.lambdas d) ∧
      (normalizeLambdas L o Q acc).2 d =
        (if d < Q.cnt then acc.hessians d * normFactor L o acc else acc.hessians d) := by
  unfold normalizeLambdas normFactor
  by_cases hd : d < Q.cnt <;> split_ifs <;> simp [hd]

/-- The pairs the routine accumulates, for the object's truncation level. -/
abbrev pairsOf : List (ℕ × ℕ) := contributingPairs kMinScore Q o.truncationLevel

omit [FloorRing K] in
theorem docAt_pairsOf_lt {p : ℕ × ℕ} (hp : p ∈ pairsOf kMinScore o Q) :
    docAt Q p.1 < Q.cnt ∧ docAt Q p.2 < Q.cnt := by
  obtain ⟨h₁, h₂, -⟩ := contributingPairs_spec kMinScore Q hp
  exact ⟨docAt_lt Q h₁, docAt_lt Q h₂⟩

/-- The bias powers that the pair loop divides by at lines 304, 308, 325 and 356, those of the
ranks of its pairs, are non-zero.  At a zero one the code divides by zero and writes infinities or
NaN, where the model's division gives `0`; statements meant for the code assume this. -/
def BiasesPowNonzero : Prop :=
  ∀ p ∈ pairsOf kMinScore o Q, o.iBiasesPow p.1 ≠ 0 ∧ o.jBiasesPow p.2 ≠ 0

/-- The pair loop as the routine runs it, field by field. -/
theorem pairLoopFrom_apply (tid : ℕ) (lambdas hessians : ℕ → K) (d : ℕ) :
    let acc := pairLoopFrom L kMinScore o Q tid lambdas hessians
    acc.lambdas d = (if d < Q.cnt then 0 else lambdas d) +
        ((pairsOf kMinScore o Q).map fun p ↦
          (if d = docAt Q p.1 then pairLambda L kMinScore o Q p.1 p.2 else 0) -
            (if d = docAt Q p.2 then pairLambda L kMinScore o Q p.1 p.2 else 0)).sum ∧
      acc.hessians d = (if d < Q.cnt then 0 else hessians d) +
        ((pairsOf kMinScore o Q).map fun p ↦
          (if d = docAt Q p.1 then pairHessian L kMinScore o Q p.1 p.2 else 0) +
            (if d = docAt Q p.2 then pairHessian L kMinScore o Q p.1 p.2 else 0)).sum ∧
      acc.sumLambdas = 0 - ((pairsOf kMinScore o Q).map fun p ↦
        2 * pairLambda L kMinScore o Q p.1 p.2).sum ∧
      acc.iCosts d = o.iCostsBuffer tid d + ((pairsOf kMinScore o Q).map fun p ↦
        if o.unbiased = true ∧ d = p.1 then
          pairCost L kMinScore o Q p.1 p.2 / o.jBiasesPow p.2 else 0).sum ∧
      acc.jCosts d = o.jCostsBuffer tid d + ((pairsOf kMinScore o Q).map fun p ↦
        if o.unbiased = true ∧ d = p.2 then
          pairCost L kMinScore o Q p.1 p.2 / o.iBiasesPow p.1 else 0).sum := by
  simp only [pairLoopFrom, pairLoop_eq_foldl]
  exact ⟨accumulatePairs_lambdas .., accumulatePairs_hessians .., accumulatePairs_sumLambdas ..,
    accumulatePairs_iCosts .., accumulatePairs_jCosts ..⟩

/-- Past the slice the pair loop changes nothing. -/
theorem pairLoopFrom_of_le (tid : ℕ) (lambdas hessians : ℕ → K) {d : ℕ} (hd : Q.cnt ≤ d) :
    (pairLoopFrom L kMinScore o Q tid lambdas hessians).lambdas d = lambdas d ∧
      (pairLoopFrom L kMinScore o Q tid lambdas hessians).hessians d = hessians d := by
  obtain ⟨hl, hh, -⟩ := pairLoopFrom_apply L kMinScore o Q tid lambdas hessians d
  have hne : ∀ p ∈ pairsOf kMinScore o Q, d ≠ docAt Q p.1 ∧ d ≠ docAt Q p.2 := fun p hp ↦
    have := docAt_pairsOf_lt kMinScore o Q hp
    ⟨by omega, by omega⟩
  rw [hl, hh, if_neg (not_lt.mpr hd), if_neg (not_lt.mpr hd)]
  constructor <;>
  · rw [List.sum_eq_zero, add_zero]
    intro x hx
    obtain ⟨p, hp, rfl⟩ := List.mem_map.mp hx
    simp [(hne p hp).1, (hne p hp).2]

/-- The routine's outputs: the normalised pair sums on the slice, the arrays untouched past it, and
row `tid` of the cost buffers replaced by the pair loop's row. -/
theorem getGradientsForOneQuery_apply (tid : ℕ) (lambdas hessians : ℕ → K) (d : ℕ) :
    let acc := pairLoopFrom L kMinScore o Q tid lambdas hessians
    let r := getGradientsForOneQuery L kMinScore o Q tid lambdas hessians
    r.gradients d = (if d < Q.cnt then acc.lambdas d * normFactor L o acc else lambdas d) ∧
      r.hessians d = (if d < Q.cnt then acc.hessians d * normFactor L o acc else hessians d) ∧
      r.state = { o with
        iCostsBuffer := Function.update o.iCostsBuffer tid acc.iCosts
        jCostsBuffer := Function.update o.jCostsBuffer tid acc.jCosts } := by
  obtain ⟨hl, hh⟩ := normalizeLambdas_apply L o Q (pairLoopFrom L kMinScore o Q tid lambdas hessians) d
  refine ⟨?_, ?_, rfl⟩ <;> simp only [getGradientsForOneQuery, hl, hh] <;> split_ifs with hd
  all_goals first
    | rfl
    | exact (pairLoopFrom_of_le L kMinScore o Q tid lambdas hessians (not_lt.mp hd)).1
    | exact (pairLoopFrom_of_le L kMinScore o Q tid lambdas hessians (not_lt.mp hd)).2

/-- A query whose only contributing pair is `(h, l)`: the document at rank `h` gets the pair's
lambda, the one at rank `l` its opposite, and both the pair's hessian, each scaled by the
normalisation factor. -/
theorem getGradientsForOneQuery_single_pair {h l : ℕ} (hp : pairsOf kMinScore o Q = [(h, l)])
    (tid : ℕ) (lambdas hessians : ℕ → K) :
    let nf := normFactor L o (pairLoopFrom L kMinScore o Q tid lambdas hessians)
    let r := getGradientsForOneQuery L kMinScore o Q tid lambdas hessians
    r.gradients (docAt Q h) = pairLambda L kMinScore o Q h l * nf ∧
      r.gradients (docAt Q l) = -pairLambda L kMinScore o Q h l * nf ∧
      r.hessians (docAt Q h) = pairHessian L kMinScore o Q h l * nf ∧
      r.hessians (docAt Q l) = pairHessian L kMinScore o Q h l * nf := by
  obtain ⟨hh, hl, hlab, -⟩ := contributingPairs_spec kMinScore Q
    (show (h, l) ∈ pairsOf kMinScore o Q by rw [hp]; exact List.mem_singleton_self _)
  have hne : docAt Q h ≠ docAt Q l := fun e ↦ hlab.ne (by rw [e])
  have hr := fun d ↦ getGradientsForOneQuery_apply L kMinScore o Q tid lambdas hessians d
  have ha := fun d ↦ pairLoopFrom_apply L kMinScore o Q tid lambdas hessians d
  refine ⟨?_, ?_, ?_, ?_⟩ <;>
  simp only [(hr _).1, (hr _).2.1, (ha _).1, (ha _).2.1, hp, if_pos (docAt_lt Q hh),
    if_pos (docAt_lt Q hl), List.map_cons, List.map_nil, List.sum_cons, List.sum_nil, if_true,
    if_neg hne, if_neg hne.symm, zero_add, add_zero, sub_zero, zero_sub]

theorem lambdarankOneQuery_frames : Frames (lambdarankOneQuery (K := K) L kMinScore) :=
  fun o tid Q lambdas hessians d hd ↦ by
    obtain ⟨hg, hh, -⟩ := getGradientsForOneQuery_apply L kMinScore o Q tid lambdas hessians d
    exact ⟨by rw [lambdarankOneQuery, hg, if_neg (not_lt.mpr hd)],
      by rw [lambdarankOneQuery, hh, if_neg (not_lt.mpr hd)]⟩

/-- The pair loop reads the output arrays only where it zeroed them. -/
theorem pairLoopFrom_agree (tid : ℕ) (lam hess lam' hess' : ℕ → K) :
    let a := pairLoopFrom L kMinScore o Q tid lam hess
    let a' := pairLoopFrom L kMinScore o Q tid lam' hess'
    a.sumLambdas = a'.sumLambdas ∧ a.iCosts = a'.iCosts ∧ a.jCosts = a'.jCosts ∧
      ∀ d < Q.cnt, a.lambdas d = a'.lambdas d ∧ a.hessians d = a'.hessians d := by
  have h := pairLoopFrom_apply L kMinScore o Q tid lam hess
  have h' := pairLoopFrom_apply L kMinScore o Q tid lam' hess'
  refine ⟨(h 0).2.2.1.trans (h' 0).2.2.1.symm, funext fun d ↦ ?_, funext fun d ↦ ?_,
    fun d hd ↦ ⟨?_, ?_⟩⟩
  · rw [(h d).2.2.2.1, (h' d).2.2.2.1]
  · rw [(h d).2.2.2.2, (h' d).2.2.2.2]
  · rw [(h d).1, (h' d).1, if_pos hd, if_pos hd]
  · rw [(h d).2.1, (h' d).2.1, if_pos hd, if_pos hd]

theorem lambdarankOneQuery_overwrites : Overwrites (lambdarankOneQuery (K := K) L kMinScore) :=
  fun o tid Q lam hess lam' hess' ↦ by
    obtain ⟨hs, hi, hj, hd⟩ := pairLoopFrom_agree L kMinScore o Q tid lam hess lam' hess'
    refine ⟨?_, fun d hdc ↦ ?_⟩
    · rw [lambdarankOneQuery, lambdarankOneQuery, (getGradientsForOneQuery_apply L kMinScore o Q tid
        lam hess 0).2.2, (getGradientsForOneQuery_apply L kMinScore o Q tid lam' hess' 0).2.2, hi, hj]
    · obtain ⟨g, h, -⟩ := getGradientsForOneQuery_apply L kMinScore o Q tid lam hess d
      obtain ⟨g', h', -⟩ := getGradientsForOneQuery_apply L kMinScore o Q tid lam' hess' d
      simp only [lambdarankOneQuery, g, h, g', h', if_pos hdc, normFactor, hs, (hd d hdc).1,
        (hd d hdc).2, and_self]

end Outputs

omit [FloorRing K] in
/-- Moving an amount from one cell of `[0, n)` to another, once per pair, keeps the total. -/
theorem sum_range_transfers (n : ℕ) (ps : List (ℕ × ℕ)) (a b : ℕ × ℕ → ℕ) (v : ℕ × ℕ → K)
    (h : ∀ p ∈ ps, a p < n ∧ b p < n) :
    ∑ d in Finset.range n,
      (ps.map fun p ↦ (if d = a p then v p else 0) - (if d = b p then v p else 0)).sum = 0 := by
  induction ps with
  | nil => simp
  | cons p ps ih =>
    have hp := h p (List.mem_cons_self _ _)
    simp only [List.map_cons, List.sum_cons, Finset.sum_add_distrib, Finset.sum_sub_distrib,
      Finset.sum_ite_eq', Finset.mem_range, if_pos hp.1, if_pos hp.2, sub_self, zero_add]
    exact ih fun q hq ↦ h q (List.mem_cons_of_mem _ hq)

section Costs

variable (L : Libm K) (kMinScore : K)

/-- What query `Q` adds at rank `r` to its thread's row of `i_costs_buffer_`. -/
def queryICost (o : LambdarankNDCG K) (Q : Query K) (r : ℕ) : K :=
  ((pairsOf kMinScore o Q).map fun p ↦ if o.unbiased = true ∧ r = p.1 then
    pairCost L kMinScore o Q p.1 p.2 / o.jBiasesPow p.2 else 0).sum

/-- What query `Q` adds at rank `r` to its thread's row of `j_costs_buffer_`. -/
def queryJCost (o : LambdarankNDCG K) (Q : Query K) (r : ℕ) : K :=
  ((pairsOf kMinScore o Q).map fun p ↦ if o.unbiased = true ∧ r = p.2 then
    pairCost L kMinScore o Q p.1 p.2 / o.iBiasesPow p.1 else 0).sum

/-- The object with its two cost buffers replaced. -/
def LambdarankNDCG.withBuffers (o : LambdarankNDCG K) (iBuffer jBuffer : ℕ → ℕ → K) :
    LambdarankNDCG K :=
  { o with iCostsBuffer := iBuffer, jCostsBuffer := jBuffer }

omit [LinearOrderedField K] [FloorRing K] in
@[simp] theorem LambdarankNDCG.withBuffers_iCostsBuffer (o : LambdarankNDCG K) (A B : ℕ → ℕ → K) :
    (o.withBuffers A B).iCostsBuffer = A := rfl

omit [LinearOrderedField K] [FloorRing K] in
@[simp] theorem LambdarankNDCG.withBuffers_jCostsBuffer (o : LambdarankNDCG K) (A B : ℕ → ℕ → K) :
    (o.withBuffers A B).jCostsBuffer = B := rfl

omit [LinearOrderedField K] [FloorRing K] in
@[simp] theorem LambdarankNDCG.withBuffers_withBuffers (o : LambdarankNDCG K)
    (A B A' B' : ℕ → ℕ → K) : (o.withBuffers A B).withBuffers A' B' = o.withBuffers A' B' := rfl

/-- The costs of a query do not read the cost buffers. -/
@[simp] theorem queryICost_withBuffers (o : LambdarankNDCG K) (A B : ℕ → ℕ → K) (Q : Query K) :
    queryICost L kMinScore (o.withBuffers A B) Q = queryICost L kMinScore o Q := rfl

@[simp] theorem queryJCost_withBuffers (o : LambdarankNDCG K) (A B : ℕ → ℕ → K) (Q : Query K) :
    queryJCost L kMinScore (o.withBuffers A B) Q = queryJCost L kMinScore o Q := rfl

/-- Without `unbiased_` a query adds no cost. -/
theorem queryICost_of_not_unbiased {o : LambdarankNDCG K} (hu : o.unbiased = false) (Q : Query K)
    (r : ℕ) : queryICost L kMinScore o Q r = 0 := by
  simp [queryICost, hu]

theorem queryJCost_of_not_unbiased {o : LambdarankNDCG K} (hu : o.unbiased = false) (Q : Query K)
    (r : ℕ) : queryJCost L kMinScore o Q r = 0 := by
  simp [queryJCost, hu]

/-- The routine changes the object only in row `tid` of the two cost buffers, where it adds the
query's costs. -/
theorem getGradientsForOneQuery_state (o : LambdarankNDCG K) (Q : Query K) (tid : ℕ)
    (lambdas hessians : ℕ → K) :
    (getGradientsForOneQuery L kMinScore o Q tid lambdas hessians).state =
      o.withBuffers
        (Function.update o.iCostsBuffer tid fun r ↦ o.iCostsBuffer tid r + queryICost L kMinScore o Q r)
        (Function.update o.jCostsBuffer tid fun r ↦ o.jCostsBuffer tid r + queryJCost L kMinScore o Q r) := by
  have hi : (pairLoopFrom L kMinScore o Q tid lambdas hessians).iCosts =
      fun r ↦ o.iCostsBuffer tid r + queryICost L kMinScore o Q r :=
    funext fun r ↦ (pairLoopFrom_apply L kMinScore o Q tid lambdas hessians r).2.2.2.1
  have hj : (pairLoopFrom L kMinScore o Q tid lambdas hessians).jCosts =
      fun r ↦ o.jCostsBuffer tid r + queryJCost L kMinScore o Q r :=
    funext fun r ↦ (pairLoopFrom_apply L kMinScore o Q tid lambdas hessians r).2.2.2.2
  rw [(getGradientsForOneQuery_apply L kMinScore o Q tid lambdas hessians 0).2.2, hi, hj]
  rfl

end Costs

/-- With `truncation_level_ = 1`, a query of two documents whose lower-scored document has the
higher label makes the loop use rank `1` as `high_rank`, past the bias and cost vectors of size
`1`. -/
theorem contributingPairs_rank_past_truncation :
    ¬ ∀ p ∈ contributingPairs (-1 : ℚ) ⟨0, 2, fun d ↦ (d : ℚ), fun d ↦ 1 - (d : ℚ)⟩ 1,
      p.1 < 1 ∧ p.2 < 1 := by
  have hs : sortedIdx (⟨0, 2, fun d ↦ (d : ℚ), fun d ↦ 1 - (d : ℚ)⟩ : Query ℚ) = [0, 1] := by
    rw [sortedIdx, show List.range 2 = [0, 1] from rfl, List.mergeSort_of_sorted]
    simp
  have hp : contributingPairs (-1 : ℚ) ⟨0, 2, fun d ↦ (d : ℚ), fun d ↦ 1 - (d : ℚ)⟩ 1 =
      [(1, 0)] := by
    simp [contributingPairs, pairRanks, docAt, hs, show List.range 1 = [0] from rfl,
      List.range'_succ, List.filterMap_cons]
    norm_num
  simp [hp]

section OneLabel

variable (L : Libm K) (kMinScore : K)

/-- A query in which the documents that do not hold `kMinScore` all carry one label (a query with
at most one such document, in particular) has no contributing pair: the routine writes lambda and
hessian `0` over the whole slice and adds no cost, so it leaves the object as it was. -/
theorem getGradientsForOneQuery_one_label (o : LambdarankNDCG K) (Q : Query K) (tid : ℕ)
    (lambdas hessians : ℕ → K)
    (hl : ∀ d < Q.cnt, ∀ d' < Q.cnt, Q.score d ≠ kMinScore → Q.score d' ≠ kMinScore →
      Q.label d = Q.label d') :
    (∀ d < Q.cnt, (getGradientsForOneQuery L kMinScore o Q tid lambdas hessians).gradients d = 0 ∧
        (getGradientsForOneQuery L kMinScore o Q tid lambdas hessians).hessians d = 0) ∧
      (getGradientsForOneQuery L kMinScore o Q tid lambdas hessians).state = o := by
  have hnil : pairsOf kMinScore o Q = [] := List.eq_nil_iff_forall_not_mem.mpr fun p hp ↦ by
    obtain ⟨h₁, h₂, hlab, hs₁, hs₂, -⟩ := contributingPairs_spec kMinScore Q hp
    exact hlab.ne (hl _ (docAt_lt Q h₂) _ (docAt_lt Q h₁) hs₂ hs₁)
  refine ⟨fun d hd ↦ ?_, ?_⟩
  · obtain ⟨hg, hh, -⟩ := getGradientsForOneQuery_apply L kMinScore o Q tid lambdas hessians d
    obtain ⟨hl', hh', -⟩ := pairLoopFrom_apply L kMinScore o Q tid lambdas hessians d
    rw [hg, hh, if_pos hd, if_pos hd, hl', hh', hnil]
    simp [hd]
  · rw [getGradientsForOneQuery_state]
    simp only [queryICost, queryJCost, hnil, List.map_nil, List.sum_nil, add_zero,
      Function.update_eq_self]
    rfl

end OneLabel

/-- Three documents with labels `[1, 1, 0]` and scores `[1, 0, -1]`, on an object with truncation
level `3`, steepness `1`, gains `[0, 1]`, inverse ideal DCG `1` and bias powers `1`: the third
document has another label but holds the sentinel `-1`, and the two others tie in label. -/
theorem getGradientsForOneQuery_one_label_tie :
    let o : LambdarankNDCG ℝ := { (default : LambdarankNDCG ℝ) with
      sigmoid := 1
      truncationLevel := 3
      labelGain := [0, 1]
      sigmoidTable := constructSigmoidTable Libm.real 1
      inverseMaxDcgs := fun _ ↦ 1
      iBiasesPow := fun _ ↦ 1
      jBiasesPow := fun _ ↦ 1 }
    let Q : Query ℝ := ⟨0, 3, fun d ↦ [1, 1, 0].getD d 0, fun d ↦ [1, 0, -1].getD d 0⟩
    let r := getGradientsForOneQuery Libm.real (-1) o Q 0 (fun _ ↦ 0) (fun _ ↦ 0)
    Q.label 0 ≠ Q.label 2 ∧ Q.cnt ≤ o.truncationLevel ∧
      (∀ d < Q.cnt, ∀ d' < Q.cnt, Q.score d ≠ -1 → Q.score d' ≠ -1 → Q.label d = Q.label d') ∧
      (∀ d < Q.cnt, r.gradients d = 0 ∧ r.hessians d = 0) ∧ r.state = o := by
  intro o Q r
  have hl : ∀ d < Q.cnt, ∀ d' < Q.cnt, Q.score d ≠ -1 → Q.score d' ≠ -1 →
      Q.label d = Q.label d' := fun d hd d' hd' hs hs' ↦ by
    have hd₃ : d < 3 := hd
    have hd₃' : d' < 3 := hd'
    interval_cases d <;> interval_cases d' <;> norm_num [Q] at hs hs' ⊢
  exact ⟨by norm_num [Q], le_rfl, hl, getGradientsForOneQuery_one_label Libm.real (-1) o Q 0 _ _ hl⟩

end RankObjective
