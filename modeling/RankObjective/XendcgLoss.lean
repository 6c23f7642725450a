import RankObjective.Xendcg
import RankObjective.Lambdarank.Surrogate

/-!
# The first-order lambdas of `RankXENDCG` are the gradient of its cross entropy

`RankXENDCG` fits the softmax `rho` of the scores to the target distribution
`params / Σ params` that the draws of `Phi` give.  The first-order term
`rho[i] - params[i] * inv_denominator` of line 576 is the derivative of the cross entropy of `rho`
against that target in the score of document `i`, and the hessian `rho[i] * (1 - rho[i])` of
line 593 is its second derivative, which lies in `(0, 1/4]`; the lambda the routine writes adds
the second- and third-order terms to the first.

Each of those corrections is `rho[i]` times a sum over the other documents; the passes form it in
linear time as `rho[i] * (sum_l - params[i])`, which is the plain double loop.  In the pairing
weighted by `1 / (rho (1 - rho))` a correction is symmetric, so the corrections never cancel a
non-zero first-order term: the lambdas vanish on the query exactly where the target is the softmax.
-/

namespace RankObjective

variable {K G : Type} [LinearOrderedField K] [FloorRing K]

/-- The cross entropy `-Σ_{i < cnt} target[i] · log rho[i]` of the softmax `rho` of `score`
against a target distribution. -/
def crossEntropy (L : Libm K) (target score : ℕ → K) (cnt : ℕ) : K :=
  -∑ i in Finset.range cnt, target i * L.log (softmax L score cnt i)

/-- The correction of the next order as the plain double loop: `rho[i]` times the terms of the
other documents over `1 - rho`. -/
def nextOrderTermNaive (rho term : ℕ → K) (cnt i : ℕ) : K :=
  rho i * ∑ j in (Finset.range cnt).erase i, term j / (1 - rho j)

omit [FloorRing K] in
/-- `rho[i] * (sum_l - params[i])` of the passes is the plain double loop. -/
theorem nextOrderTerm_eq_naive (rho term : ℕ → K) {cnt i : ℕ} (hi : i < cnt) :
    nextOrderTerm rho term cnt i = nextOrderTermNaive rho term cnt i := by
  rw [nextOrderTerm, nextOrderTermNaive, sumOver,
    ← Finset.add_sum_erase _ _ (Finset.mem_range.mpr hi), add_sub_cancel_left]

omit [FloorRing K] in
/-- The plain double loop reads the terms on the query only. -/
theorem nextOrderTermNaive_congr (rho : ℕ → K) {t t' : ℕ → K} {cnt : ℕ}
    (h : ∀ j < cnt, t j = t' j) (i : ℕ) :
    nextOrderTermNaive rho t cnt i = nextOrderTermNaive rho t' cnt i := by
  unfold nextOrderTermNaive
  congr 1
  exact Finset.sum_congr rfl fun j hj ↦ by
    rw [h j (Finset.mem_range.mp (Finset.mem_of_mem_erase hj))]

section Calculus

variable {cnt : ℕ} (score : ℕ → ℝ)

/-- The softmax denominator `Σ_{j < cnt} exp score[j]`. -/
theorem sum_exp_pos (hcnt : 0 < cnt) : 0 < ∑ j in Finset.range cnt, Real.exp (score j) :=
  Finset.sum_pos (fun _ _ ↦ Real.exp_pos _) (Finset.nonempty_range_iff.mpr hcnt.ne')

theorem softmax_real_pos (hcnt : 0 < cnt) {i : ℕ} : 0 < softmax Libm.real score cnt i :=
  div_pos (Real.exp_pos _) (sum_exp_pos score hcnt)

/-- Against a target that sums to one, the cross entropy is the log-sum-exp of the scores less the
target's mean score. -/
theorem crossEntropy_real_eq {target : ℕ → ℝ} (htarget : ∑ i in Finset.range cnt, target i = 1)
    (hcnt : 0 < cnt) :
    crossEntropy Libm.real target score cnt =
      Real.log (∑ j in Finset.range cnt, Real.exp (score j)) -
        ∑ i in Finset.range cnt, target i * score i := by
  have hlog : ∀ i, Real.log (softmax Libm.real score cnt i) =
      score i - Real.log (∑ j in Finset.range cnt, Real.exp (score j)) := fun i ↦ by
    simp only [softmax, Libm.real_exp]
    rw [Real.log_div (Real.exp_pos _).ne' (sum_exp_pos score hcnt).ne', Real.log_exp]
  simp only [crossEntropy, Libm.real_log, hlog, mul_sub, Finset.sum_sub_distrib, ← Finset.sum_mul,
    htarget, one_mul]
  ring

variable {d : ℕ} (hd : d < cnt)
include hd

/-- Moving the score of document `d` moves the softmax denominator at the rate `exp score[d]`. -/
theorem hasDerivAt_sum_exp_update (x : ℝ) :
    HasDerivAt (fun t ↦ ∑ j in Finset.range cnt, Real.exp (Function.update score d t j))
      (Real.exp x) x := by
  refine (HasDerivAt.sum fun j _ ↦ (hasDerivAt_update_apply score d j x).exp).congr_deriv ?_
  simp only [mul_ite, mul_one, mul_zero, Finset.sum_ite_eq, Finset.mem_range.mpr hd, if_true,
    Function.update_same]

/-- Along the score of document `d` the softmax entry of `d` moves at the rate `rho (1 - rho)`. -/
theorem hasDerivAt_softmax_update (x : ℝ) :
    HasDerivAt (fun t ↦ softmax Libm.real (Function.update score d t) cnt d)
      (softmax Libm.real (Function.update score d x) cnt d *
        (1 - softmax Libm.real (Function.update score d x) cnt d)) x := by
  have hZ := sum_exp_pos (Function.update score d x) (hd.trans_le' (Nat.zero_le _))
  simp only [softmax, Libm.real_exp, Function.update_same]
  refine ((Real.hasDerivAt_exp x).div (hasDerivAt_sum_exp_update score hd x) hZ.ne').congr_deriv ?_
  generalize ∑ j in Finset.range cnt, Real.exp (Function.update score d x j) = Z at hZ ⊢
  field_simp
  ring

/-- Along the score of document `d`, against a target that sums to one, the cross entropy moves at
the rate `rho[d] - target[d]`. -/
theorem hasDerivAt_crossEntropy_update {target : ℕ → ℝ}
    (htarget : ∑ i in Finset.range cnt, target i = 1) (x : ℝ) :
    HasDerivAt (fun t ↦ crossEntropy Libm.real target (Function.update score d t) cnt)
      (softmax Libm.real (Function.update score d x) cnt d - target d) x := by
  have hcnt : 0 < cnt := hd.trans_le' (Nat.zero_le _)
  have hZ := sum_exp_pos (Function.update score d x) hcnt
  simp only [crossEntropy_real_eq _ htarget hcnt]
  refine ((hasDerivAt_sum_exp_update score hd x).log hZ.ne').sub
    (HasDerivAt.sum fun i _ ↦ (hasDerivAt_update_apply score d i x).const_mul (target i))
    |>.congr_deriv ?_
  simp only [softmax, Libm.real_exp, Function.update_same, mul_ite, mul_one, mul_zero,
    Finset.sum_ite_eq, Finset.mem_range.mpr hd, if_true]

end Calculus

/-- Where the parameters sum to at least `kEpsilon`, the floor of line 570 leaves their sum alone,
and the first-order terms the routine forms from its draws are `rho[i] - Phi(label[i], draw_i)`
over that sum. -/
theorem firstOrderTerm_drawParams (L : Libm K) (R : Random K G) (o : RankXENDCG K G) (Q : Query K)
    (hsum : kEpsilon ≤ ∑ i in Finset.range Q.cnt, phi (Q.label i) (R.drawAt (o.rands Q.queryId) i))
    {i : ℕ} (hi : i < Q.cnt) :
    firstOrderTerm (softmax L Q.score Q.cnt) (drawParams R Q.label Q.cnt (o.rands Q.queryId)).1
        (1 / max kEpsilon (drawParams R Q.label Q.cnt (o.rands Q.queryId)).2.1) i =
      firstOrderTerm (softmax L Q.score Q.cnt) (fun i ↦ phi (Q.label i) (R.drawAt (o.rands Q.queryId) i))
        (1 / ∑ i in Finset.range Q.cnt, phi (Q.label i) (R.drawAt (o.rands Q.queryId) i)) i := by
  obtain ⟨hd₁, hd₂, -⟩ := drawParams_apply R Q.label Q.cnt (o.rands Q.queryId)
  rw [firstOrderTerm, hd₁, if_pos hi, hd₂, max_eq_right hsum]
  rfl

/-- On a query of two documents or more whose parameters sum to at least `kEpsilon`, the
first-order term of each document is the derivative, in that document's score, of the cross
entropy of the softmax against the target `params / Σ params`; the hessian the routine writes is
the second derivative; and the lambda it writes is that derivative plus the second- and
third-order terms. -/
theorem getGradientsForOneQuery_xendcg_crossEntropy_derivs (R : Random ℝ G) (o : RankXENDCG ℝ G)
    (Q : Query ℝ) (lambdas hessians : ℕ → ℝ) (hcnt : 2 ≤ Q.cnt)
    (hsum : kEpsilon ≤ ∑ i in Finset.range Q.cnt, phi (Q.label i) (R.drawAt (o.rands Q.queryId) i))
    {d : ℕ} (hd : d < Q.cnt) :
    let params := fun i ↦ phi (Q.label i) (R.drawAt (o.rands Q.queryId) i)
    let rho := softmax Libm.real Q.score Q.cnt
    let first := firstOrderTerm rho params (1 / ∑ i in Finset.range Q.cnt, params i)
    let F := fun t ↦ crossEntropy Libm.real (fun i ↦ params i / ∑ j in Finset.range Q.cnt, params j)
      (Function.update Q.score d t) Q.cnt
    let r := o.getGradientsForOneQuery Libm.real R Q lambdas hessians
    HasDerivAt F (first d) (Q.score d) ∧ HasDerivAt (deriv F) (r.hessians d) (Q.score d) ∧
      r.gradients d = deriv F (Q.score d) + nextOrderTerm rho first Q.cnt d +
        nextOrderTerm rho (nextOrderTerm rho first Q.cnt) Q.cnt d := by
  intro params rho first F r
  have hS : 0 < ∑ i in Finset.range Q.cnt, params i :=
    lt_of_lt_of_le (by norm_num [kEpsilon]) hsum
  have htarget : ∑ i in Finset.range Q.cnt, params i / ∑ j in Finset.range Q.cnt, params j = 1 := by
    rw [← Finset.sum_div, div_self hS.ne']
  have hF := hasDerivAt_crossEntropy_update Q.score hd htarget
  have hF' : deriv F = fun x ↦ softmax Libm.real (Function.update Q.score d x) Q.cnt d -
      params d / ∑ j in Finset.range Q.cnt, params j := funext fun x ↦ (hF x).deriv
  have h₁ : HasDerivAt F (first d) (Q.score d) := (hF _).congr_deriv (by
    simp only [Function.update_eq_self, first, firstOrderTerm]
    ring)
  obtain ⟨hg, hh, -⟩ := o.getGradientsForOneQuery_apply Libm.real R Q lambdas hessians hcnt
  refine ⟨h₁, ?_, ?_⟩
  · rw [hF', hh d, if_pos hd]
    simpa only [Function.update_eq_self] using
      (hasDerivAt_softmax_update Q.score hd (Q.score d)).sub_const
        (params d / ∑ j in Finset.range Q.cnt, params j)
  · -- the second and third passes read the first-order terms on the query only
    have hfirst := fun i (hi : i < Q.cnt) ↦ firstOrderTerm_drawParams Libm.real R o Q hsum hi
    have hsecond := @nextOrderTerm_congr ℝ _ rho rho _ _ Q.cnt (fun _ _ ↦ rfl) hfirst
    rw [h₁.deriv, hg d, if_pos hd, hfirst d hd, hsecond d hd,
      @nextOrderTerm_congr ℝ _ rho rho _ _ Q.cnt (fun _ _ ↦ rfl) hsecond d hd]

/-- The passes compute the plain double loop: on a query of two documents or more the lambda of
document `i` is its first-order term, plus `rho[i]` times the other documents' first-order terms
over `1 - rho`, plus `rho[i]` times the other documents' second-order terms over `1 - rho`. -/
theorem getGradientsForOneQuery_xendcg_naive (L : Libm K) (R : Random K G) (o : RankXENDCG K G)
    (Q : Query K) (lambdas hessians : ℕ → K) (hcnt : 2 ≤ Q.cnt) {i : ℕ} (hi : i < Q.cnt) :
    let rho := softmax L Q.score Q.cnt
    let drawn := drawParams R Q.label Q.cnt (o.rands Q.queryId)
    let first := firstOrderTerm rho drawn.1 (1 / max kEpsilon drawn.2.1)
    (o.getGradientsForOneQuery L R Q lambdas hessians).gradients i =
      first i + nextOrderTermNaive rho first Q.cnt i +
        nextOrderTermNaive rho (nextOrderTermNaive rho first Q.cnt) Q.cnt i := by
  intro rho drawn first
  obtain ⟨hg, -, -⟩ := o.getGradientsForOneQuery_apply L R Q lambdas hessians hcnt
  rw [hg i, if_pos hi, nextOrderTerm_eq_naive _ _ hi, nextOrderTerm_eq_naive _ _ hi,
    nextOrderTermNaive_congr rho (fun j hj ↦ nextOrderTerm_eq_naive rho first hj)]

/-- Two documents with labels `1` and `0`, scores `1` and `0`, and every draw `1 / 2`: the second
document. -/
theorem getGradientsForOneQuery_xendcg_naive_pair :
    let R : Random ℝ ℕ := ⟨fun _ ↦ 0, fun n ↦ (1 / 2, n + 1)⟩
    let o : RankXENDCG ℝ ℕ := ⟨default, fun _ ↦ 0⟩
    let Q : Query ℝ := ⟨0, 2, fun d ↦ [1, 0].getD d 0, fun d ↦ [1, 0].getD d 0⟩
    let rho := softmax Libm.real Q.score Q.cnt
    let drawn := drawParams R Q.label Q.cnt (o.rands Q.queryId)
    let first := firstOrderTerm rho drawn.1 (1 / max kEpsilon drawn.2.1)
    (o.getGradientsForOneQuery Libm.real R Q (fun _ ↦ 0) (fun _ ↦ 0)).gradients 1 =
      first 1 + nextOrderTermNaive rho first Q.cnt 1 +
        nextOrderTermNaive rho (nextOrderTermNaive rho first Q.cnt) Q.cnt 1 :=
  getGradientsForOneQuery_xendcg_naive Libm.real _ _ _ _ _ le_rfl one_lt_two

/-- Every hessian the routine writes on the query is `0` on a query of fewer than two documents and
`rho[i] * (1 - rho[i])`, in `(0, 1/4]`, otherwise: the softmax of two documents or more lies
strictly between `0` and `1`. -/
theorem getGradientsForOneQuery_xendcg_hessians_mem (R : Random ℝ G) (o : RankXENDCG ℝ G)
    (Q : Query ℝ) (lambdas hessians : ℕ → ℝ) {i : ℕ} (hi : i < Q.cnt) :
    (Q.cnt ≤ 1 → (o.getGradientsForOneQuery Libm.real R Q lambdas hessians).hessians i = 0) ∧
      (2 ≤ Q.cnt → (o.getGradientsForOneQuery Libm.real R Q lambdas hessians).hessians i =
          softmax Libm.real Q.score Q.cnt i * (1 - softmax Libm.real Q.score Q.cnt i) ∧
        0 < (o.getGradientsForOneQuery Libm.real R Q lambdas hessians).hessians i ∧
        (o.getGradientsForOneQuery Libm.real R Q lambdas hessians).hessians i ≤ 1 / 4) := by
  refine ⟨fun hcnt ↦ by simp [RankXENDCG.getGradientsForOneQuery, hcnt, hi], fun hcnt ↦ ?_⟩
  have hpos := softmax_real_pos Q.score (by omega : 0 < Q.cnt) (i := i)
  have hlt := softmax_real_lt_one Q.score hcnt hi
  rw [o.getGradientsForOneQuery_hessians Libm.real R Q lambdas hessians hcnt hi]
  refine ⟨rfl, mul_pos hpos (sub_pos.mpr hlt), ?_⟩
  calc softmax Libm.real Q.score Q.cnt i * (1 - softmax Libm.real Q.score Q.cnt i)
      = 1 / 4 - (softmax Libm.real Q.score Q.cnt i - 1 / 2) ^ 2 := by ring
    _ ≤ 1 / 4 := sub_le_self _ (sq_nonneg _)

/-- Two documents with labels `1` and `0`, scores `1` and `0`, and every draw `1 / 2`. -/
theorem getGradientsForOneQuery_xendcg_hessians_mem_pair :
    let R : Random ℝ ℕ := ⟨fun _ ↦ 0, fun n ↦ (1 / 2, n + 1)⟩
    let o : RankXENDCG ℝ ℕ := ⟨default, fun _ ↦ 0⟩
    let Q : Query ℝ := ⟨0, 2, fun d ↦ [1, 0].getD d 0, fun d ↦ [1, 0].getD d 0⟩
    (o.getGradientsForOneQuery Libm.real R Q (fun _ ↦ 0) (fun _ ↦ 0)).hessians 0 ≤ 1 / 4 :=
  ((getGradientsForOneQuery_xendcg_hessians_mem _ _ _ _ _ two_pos).2 le_rfl).2.2

/-- Two documents with labels `1` and `0`, scores `1` and `0`, and every draw `1 / 2`: the
first-order term of the first document is the slope of the cross entropy in its score. -/
theorem getGradientsForOneQuery_xendcg_crossEntropy_derivs_pair :
    let R : Random ℝ ℕ := ⟨fun _ ↦ 0, fun n ↦ (1 / 2, n + 1)⟩
    let o : RankXENDCG ℝ ℕ := ⟨default, fun _ ↦ 0⟩
    let Q : Query ℝ := ⟨0, 2, fun d ↦ [1, 0].getD d 0, fun d ↦ [1, 0].getD d 0⟩
    let params := fun i ↦ phi (Q.label i) (R.drawAt (o.rands Q.queryId) i)
    HasDerivAt (fun t ↦ crossEntropy Libm.real
        (fun i ↦ params i / ∑ j in Finset.range Q.cnt, params j) (Function.update Q.score 0 t) Q.cnt)
      (firstOrderTerm (softmax Libm.real Q.score Q.cnt) params
        (1 / ∑ i in Finset.range Q.cnt, params i) 0) (Q.score 0) := by
  intro R o Q params
  have hsum : kEpsilon ≤ ∑ i in Finset.range Q.cnt, params i := by
    simp [params, Q, R, Random.drawAt, Finset.sum_range_succ, phi, truncInt, kEpsilon]
    norm_num
  exact (getGradientsForOneQuery_xendcg_crossEntropy_derivs R o Q (fun _ ↦ 0) (fun _ ↦ 0) le_rfl
    hsum two_pos).1

section Stationary

omit [FloorRing K]

variable {rho : ℕ → K} {cnt : ℕ}

/-- The pairing `Σ_{i < cnt} x[i] y[i] / (rho[i] (1 - rho[i]))`, in which the corrections of the
second and third passes are symmetric. -/
def passPairing (rho x y : ℕ → K) (cnt : ℕ) : K :=
  ∑ i in Finset.range cnt, x i * y i / (rho i * (1 - rho i))

/-- Paired with `x`, the correction of `y` is `(Σ u) (Σ v) - Σ u v` for `u = x / (1 - rho)` and
`v = y / (1 - rho)`. -/
theorem passPairing_nextOrderTerm (hρ : ∀ i < cnt, 0 < rho i ∧ rho i < 1) (x y : ℕ → K) :
    passPairing rho x (nextOrderTerm rho y cnt) cnt =
      sumOver rho x cnt * sumOver rho y cnt -
        ∑ i in Finset.range cnt, x i / (1 - rho i) * (y i / (1 - rho i)) := by
  unfold passPairing
  rw [sumOver, Finset.sum_mul, ← Finset.sum_sub_distrib]
  refine Finset.sum_congr rfl fun i hi ↦ ?_
  rw [nextOrderTerm, mul_left_comm, mul_div_mul_left _ _ (hρ i (Finset.mem_range.mp hi)).1.ne',
    mul_sub, sub_div, mul_div_right_comm, mul_div_right_comm]

theorem passPairing_nextOrderTerm_comm (hρ : ∀ i < cnt, 0 < rho i ∧ rho i < 1) (x y : ℕ → K) :
    passPairing rho x (nextOrderTerm rho y cnt) cnt =
      passPairing rho y (nextOrderTerm rho x cnt) cnt := by
  rw [passPairing_nextOrderTerm hρ, passPairing_nextOrderTerm hρ, mul_comm (sumOver rho x cnt)]
  exact congrArg _ (Finset.sum_congr rfl fun i _ ↦ mul_comm _ _)

/-- With `rho` strictly between `0` and `1` on the query, the three orders of terms cancel on the
whole query only where the first-order terms vanish: paired with `f`, their sum is
`Σ (f² + f s + s²) / (rho (1 - rho))`, `s` the second-order terms, and every summand is
non-negative and zero only where `f` is. -/
theorem eq_zero_of_orders_sum_eq_zero {rho : ℕ → ℝ} (hρ : ∀ i < cnt, 0 < rho i ∧ rho i < 1)
    {f : ℕ → ℝ} (h : ∀ i < cnt,
      f i + nextOrderTerm rho f cnt i + nextOrderTerm rho (nextOrderTerm rho f cnt) cnt i = 0) :
    ∀ i < cnt, f i = 0 := by
  set s := nextOrderTerm rho f cnt
  have hsq : ∀ a b : ℝ, a * a + a * b + b * b = ((2 * b + a) ^ 2 + 3 * a ^ 2) / 4 := fun a b ↦ by
    ring
  have hw : ∀ i < cnt, 0 < rho i * (1 - rho i) := fun i hi ↦
    mul_pos (hρ i hi).1 (sub_pos.mpr (hρ i hi).2)
  have hpair : ∑ i in Finset.range cnt,
      (f i * f i + f i * s i + s i * s i) / (rho i * (1 - rho i)) = 0 := by
    calc _ = passPairing rho f f cnt + passPairing rho f s cnt + passPairing rho s s cnt := by
          simp only [passPairing, ← Finset.sum_add_distrib, add_div]
      _ = passPairing rho f (fun i ↦ f i + s i + nextOrderTerm rho s cnt i) cnt := by
          rw [← passPairing_nextOrderTerm_comm hρ f s]
          simp only [passPairing, ← Finset.sum_add_distrib, mul_add, add_div]
      _ = 0 := Finset.sum_eq_zero fun i hi ↦ by
          dsimp only
          rw [h i (Finset.mem_range.mp hi), mul_zero, zero_div]
  have hnonneg : ∀ i ∈ Finset.range cnt,
      0 ≤ (f i * f i + f i * s i + s i * s i) / (rho i * (1 - rho i)) := fun i hi ↦
    div_nonneg (hsq (f i) (s i) ▸ div_nonneg (add_nonneg (sq_nonneg _)
      (mul_nonneg zero_le_three (sq_nonneg _))) zero_le_four) (hw i (Finset.mem_range.mp hi)).le
  intro i hi
  have hi0 := (Finset.sum_eq_zero_iff_of_nonneg hnonneg).mp hpair i (Finset.mem_range.mpr hi)
  rw [div_eq_zero_iff, or_iff_left (hw i hi).ne', hsq, div_eq_zero_iff, or_iff_left four_ne_zero,
    add_eq_zero_iff_of_nonneg (sq_nonneg _) (mul_nonneg zero_le_three (sq_nonneg _))] at hi0
  exact pow_eq_zero_iff two_ne_zero |>.mp ((mul_eq_zero.mp hi0.2).resolve_left three_ne_zero)

end Stationary

/-- On a query of two documents or more the lambdas the routine writes all vanish exactly when the
target distribution it draws, `params / max(kEpsilon, Σ params)`, is the softmax of the scores:
the second- and third-order corrections never cancel a non-zero first-order term. -/
theorem getGradientsForOneQuery_xendcg_stationary (R : Random ℝ G) (o : RankXENDCG ℝ G)
    (Q : Query ℝ) (lambdas hessians : ℕ → ℝ) (hcnt : 2 ≤ Q.cnt) :
    (∀ i < Q.cnt, (o.getGradientsForOneQuery Libm.real R Q lambdas hessians).gradients i = 0) ↔
      ∀ i < Q.cnt, phi (Q.label i) (R.drawAt (o.rands Q.queryId) i) /
          max kEpsilon (∑ j in Finset.range Q.cnt, phi (Q.label j) (R.drawAt (o.rands Q.queryId) j)) =
        softmax Libm.real Q.score Q.cnt i := by
  obtain ⟨hg, -, -⟩ := o.getGradientsForOneQuery_apply Libm.real R Q lambdas hessians hcnt
  obtain ⟨hd₁, hd₂, -⟩ := drawParams_apply R Q.label Q.cnt (o.rands Q.queryId)
  set rho := softmax Libm.real Q.score Q.cnt
  set f := firstOrderTerm rho (drawParams R Q.label Q.cnt (o.rands Q.queryId)).1
    (1 / max kEpsilon (drawParams R Q.label Q.cnt (o.rands Q.queryId)).2.1)
  have hf : ∀ i < Q.cnt, f i = rho i - phi (Q.label i) (R.drawAt (o.rands Q.queryId) i) /
      max kEpsilon (∑ j in Finset.range Q.cnt, phi (Q.label j) (R.drawAt (o.rands Q.queryId) j)) :=
    fun i hi ↦ by
      simp only [f, firstOrderTerm, hd₁, if_pos hi, hd₂]
      ring
  constructor
  · intro h i hi
    have hρ : ∀ i < Q.cnt, 0 < rho i ∧ rho i < 1 := fun i hi ↦
      ⟨softmax_real_pos Q.score (by omega), softmax_real_lt_one Q.score hcnt hi⟩
    have h0 := eq_zero_of_orders_sum_eq_zero hρ (fun j hj ↦ by rw [← h j hj, hg j, if_pos hj]) i hi
    rw [hf i hi] at h0
    linarith
  · intro h i hi
    -- with no first-order term, the passes after it add nothing
    have hf0 : ∀ j < Q.cnt, f j = 0 := fun j hj ↦ by rw [hf j hj, h j hj, sub_self]
    have hnext : ∀ t : ℕ → ℝ, (∀ j < Q.cnt, t j = 0) → ∀ j < Q.cnt, nextOrderTerm rho t Q.cnt j = 0 :=
      fun t ht j hj ↦ by
        rw [@nextOrderTerm_congr ℝ _ rho rho t (fun _ ↦ 0) Q.cnt (fun _ _ ↦ rfl) ht j hj]
        simp [nextOrderTerm, sumOver]
    rw [hg i, if_pos hi, hf0 i hi, hnext f hf0 i hi, hnext _ (hnext f hf0) i hi, add_zero, add_zero]

/-- Two documents of label `1` and equal scores, every draw `1 / 2`: the target is the softmax
`(1/2, 1/2)`, and both lambdas vanish. -/
theorem getGradientsForOneQuery_xendcg_stationary_tie :
    let R : Random ℝ ℕ := ⟨fun _ ↦ 0, fun n ↦ (1 / 2, n + 1)⟩
    let o : RankXENDCG ℝ ℕ := ⟨default, fun _ ↦ 0⟩
    let Q : Query ℝ := ⟨0, 2, fun _ ↦ 1, fun _ ↦ 0⟩
    2 ≤ Q.cnt ∧ ∀ i < Q.cnt, (o.getGradientsForOneQuery Libm.real R Q (fun _ ↦ 0) (fun _ ↦ 0)).gradients i = 0 := by
  intro R o Q
  refine ⟨le_rfl, (getGradientsForOneQuery_xendcg_stationary R o Q _ _ le_rfl).mpr fun i hi ↦ ?_⟩
  simp [Q, R, o, Random.drawAt, Random.advance, Finset.sum_range_succ, phi, truncInt, kEpsilon,
    softmax]
  norm_num

omit [FloorRing K] in
/-- With two documents whose `rho` sums to one, the correction of each document is the other
document's term of the pass before. -/
theorem nextOrderTerm_two {rho : ℕ → K} {cnt : ℕ} (hc : cnt = 2) (h : rho 0 + rho 1 = 1)
    (h₀ : rho 0 ≠ 0) (h₁ : rho 1 ≠ 0) (t : ℕ → K) :
    nextOrderTerm rho t cnt 0 = t 1 ∧ nextOrderTerm rho t cnt 1 = t 0 := by
  subst hc
  have e₀ : 1 - rho 0 = rho 1 := by rw [← h, add_sub_cancel_left]
  have e₁ : 1 - rho 1 = rho 0 := by rw [← h, add_sub_cancel_right]
  simp only [nextOrderTerm, sumOver, Finset.sum_range_succ, Finset.sum_range_zero, zero_add, e₀, e₁]
  rw [add_sub_cancel_left, add_sub_cancel_right]
  exact ⟨mul_div_cancel₀ _ h₀, mul_div_cancel₀ _ h₁⟩

/-- On a query of two documents the corrections of the second and third passes collapse, each
being the other document's term of the pass before: the lambda of each document is its
first-order term plus the sum of both first-order terms, and so just its first-order term
`rho[i] - params[i] / Σ params` when the parameters sum to at least `kEpsilon`. -/
theorem getGradientsForOneQuery_xendcg_two (R : Random ℝ G) (o : RankXENDCG ℝ G) (Q : Query ℝ)
    (lambdas hessians : ℕ → ℝ) (hcnt : Q.cnt = 2) :
    let rho := softmax Libm.real Q.score Q.cnt
    let drawn := drawParams R Q.label Q.cnt (o.rands Q.queryId)
    let first := firstOrderTerm rho drawn.1 (1 / max kEpsilon drawn.2.1)
    (∀ i < 2, (o.getGradientsForOneQuery Libm.real R Q lambdas hessians).gradients i =
        first i + (first 0 + first 1)) ∧
      (kEpsilon ≤ drawn.2.1 →
        ∀ i < 2, (o.getGradientsForOneQuery Libm.real R Q lambdas hessians).gradients i = first i) := by
  intro rho drawn first
  have hg : ∀ j, (o.getGradientsForOneQuery Libm.real R Q lambdas hessians).gradients j =
      if j < Q.cnt then first j + nextOrderTerm rho first Q.cnt j +
        nextOrderTerm rho (nextOrderTerm rho first Q.cnt) Q.cnt j else lambdas j :=
    (o.getGradientsForOneQuery_apply Libm.real R Q lambdas hessians hcnt.ge).1
  have hrange : Finset.range Q.cnt = Finset.range 2 := by rw [hcnt]
  have hrho : rho 0 + rho 1 = 1 := by
    have := softmax_real_sum Q.score (show 0 < Q.cnt by omega)
    simpa only [hrange, Finset.sum_range_succ, Finset.sum_range_zero, zero_add] using this
  have hpos : ∀ i, 0 < rho i := fun _ ↦ softmax_real_pos Q.score (by omega)
  obtain ⟨h₂₀, h₂₁⟩ := nextOrderTerm_two hcnt hrho (hpos 0).ne' (hpos 1).ne' first
  obtain ⟨h₃₀, h₃₁⟩ :=
    nextOrderTerm_two hcnt hrho (hpos 0).ne' (hpos 1).ne' (nextOrderTerm rho first Q.cnt)
  have hcollapse : ∀ i < 2, (o.getGradientsForOneQuery Libm.real R Q lambdas hessians).gradients i =
      first i + (first 0 + first 1) := fun i hi ↦ by
    rw [hg i, if_pos (hcnt ▸ hi)]
    interval_cases i
    · rw [h₂₀, h₃₀, h₂₁]; ring
    · rw [h₂₁, h₃₁, h₂₀]; ring
  refine ⟨hcollapse, fun hsum i hi ↦ ?_⟩
  -- the first-order terms sum to `1 - Σ params / Σ params`
  obtain ⟨hd₁, hd₂, -⟩ := drawParams_apply R Q.label Q.cnt (o.rands Q.queryId)
  have hS : 0 < drawn.2.1 := lt_of_lt_of_le (by norm_num [kEpsilon]) hsum
  have hsum₂ : drawn.1 0 + drawn.1 1 = drawn.2.1 := by
    show (drawParams R Q.label Q.cnt (o.rands Q.queryId)).1 0 +
      (drawParams R Q.label Q.cnt (o.rands Q.queryId)).1 1 =
        (drawParams R Q.label Q.cnt (o.rands Q.queryId)).2.1
    rw [hd₁, hd₁, hd₂, if_pos (by omega), if_pos (by omega), hrange, Finset.sum_range_succ,
      Finset.sum_range_one]
  have hfirst : first 0 + first 1 = 0 := by
    show firstOrderTerm rho drawn.1 (1 / max kEpsilon drawn.2.1) 0 +
      firstOrderTerm rho drawn.1 (1 / max kEpsilon drawn.2.1) 1 = 0
    rw [firstOrderTerm, firstOrderTerm, max_eq_right hsum]
    calc -drawn.1 0 * (1 / drawn.2.1) + rho 0 + (-drawn.1 1 * (1 / drawn.2.1) + rho 1)
        = rho 0 + rho 1 - (drawn.1 0 + drawn.1 1) / drawn.2.1 := by ring
      _ = 0 := by rw [hsum₂, div_self hS.ne', hrho, sub_self]
  rw [hcollapse i hi, hfirst, add_zero]

/-- Two documents with labels `1` and `0`, scores `1` and `0`, and every draw `1 / 2`. -/
theorem getGradientsForOneQuery_xendcg_two_pair :
    let R : Random ℝ ℕ := ⟨fun _ ↦ 0, fun n ↦ (1 / 2, n + 1)⟩
    let o : RankXENDCG ℝ ℕ := ⟨default, fun _ ↦ 0⟩
    let Q : Query ℝ := ⟨0, 2, fun d ↦ [1, 0].getD d 0, fun d ↦ [1, 0].getD d 0⟩
    let rho := softmax Libm.real Q.score Q.cnt
    let drawn := drawParams R Q.label Q.cnt (o.rands Q.queryId)
    let first := firstOrderTerm rho drawn.1 (1 / max kEpsilon drawn.2.1)
    Q.cnt = 2 ∧ kEpsilon ≤ drawn.2.1 ∧
      (o.getGradientsForOneQuery Libm.real R Q (fun _ ↦ 0) (fun _ ↦ 0)).gradients 0 = first 0 := by
  intro R o Q rho drawn first
  have hsum : kEpsilon ≤ drawn.2.1 := by
    simp [drawn, drawParams, Q, R, o, phi, truncInt, kEpsilon, List.range_succ]
    norm_num
  exact ⟨rfl, hsum, (getGradientsForOneQuery_xendcg_two R o Q _ _ rfl).2 hsum 0 two_pos⟩

end RankObjective
