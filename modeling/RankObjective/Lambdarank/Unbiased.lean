import RankObjective.Lambdarank.Bias
import RankObjective.Lambdarank.Hessians

/-!
# The bias powers one call leaves

With `unbiased_`, a `GetGradients` call from a reachable state sets each bias power below
`truncation_level_` to `pow(Ci[r] / Ci[0], eta_)`, `Ci` being the costs of that call alone, and
clears the costs again, whatever the schedule of its parallel loop.  Over the reals this is `1` at
rank `0` and positive where ranks `0` and `r` both collected cost.  The call itself divides by the
bias powers of the ranks of its pairs, all below `truncation_level_` when its queries have at most
that many documents, so it divides by positive numbers only when it starts from positive bias
powers.  That does not carry over to the next call: nothing keeps a rank from collecting no cost,
and then its bias power is `0`.  The buffers are sized by `omp_get_num_threads()` as the
constructor reads it, `1` outside a parallel region.
-/

namespace RankObjective

section Estimator

variable {K : Type} [LinearOrderedField K] [FloorRing K] (L : Libm K) (kMinScore : K)

/-- One call with `unbiased_` from a reachable state, its queries of at most `truncation_level_`
documents spread over the team's threads in any way and order, sets every bias power below
`truncation_level_` from the costs of that call and leaves costs and buffers cleared. -/
theorem getGradients_biases_from_call_costs {o : LambdarankNDCG K}
    (hr : Reachable L kMinScore o) (hu : o.unbiased = true) {schedule : List (ℕ × ℕ)}
    (hs : IsSchedule o.numQueries o.numThreads schedule) (score gradients hessians : ℕ → K) :
    (∀ q < o.numQueries, o.cnt q ≤ o.truncationLevel) →
      (∀ r < o.truncationLevel,
        (o.getGradients L kMinScore score schedule gradients hessians).state.iBiasesPow r =
            L.pow (roundICost L kMinScore o score r / roundICost L kMinScore o score 0) o.eta ∧
          (o.getGradients L kMinScore score schedule gradients hessians).state.jBiasesPow r =
            L.pow (roundJCost L kMinScore o score r / roundJCost L kMinScore o score 0) o.eta) ∧
        CostsCleared (o.getGradients L kMinScore score schedule gradients hessians).state :=
  fun _ ↦ ⟨fun _ hr' ↦ getGradients_biasesPow L kMinScore (costsCleared_of_reachable L kMinScore hr)
      hu hs score gradients hessians hr',
    costsCleared_getGradients L kMinScore (costsCleared_of_reachable L kMinScore hr) score schedule
      gradients hessians⟩

end Estimator

theorem getGradients_biases_from_call_costs_witness :
    let o := initPositionBiasesAndGradients (LambdarankNDCG.ofBase Libm.real
      ⟨0, 1, false, 3, true, 1, [0, 1, 3]⟩ none ⟨0, 1, 3, fun d ↦ [1, 2, 0].getD d 0, none, (3 * ·)⟩)
    let score : ℕ → ℝ := fun d ↦ [100, 50, 0].getD d 0
    let o₁ := (o.getGradients Libm.real (-1) score [(0, 0)] (fun _ ↦ 0) (fun _ ↦ 0)).state
    Reachable Libm.real (-1) o ∧ o.unbiased = true ∧ IsSchedule o.numQueries o.numThreads [(0, 0)] ∧
      (∀ q < o.numQueries, o.cnt q ≤ o.truncationLevel) ∧
      (∀ r < o.truncationLevel,
        o₁.iBiasesPow r = Libm.real.pow
            (roundICost Libm.real (-1) o score r / roundICost Libm.real (-1) o score 0) o.eta ∧
          o₁.jBiasesPow r = Libm.real.pow
            (roundJCost Libm.real (-1) o score r / roundJCost Libm.real (-1) o score 0) o.eta) ∧
        CostsCleared o₁ := by
  intro o score o₁
  have hr : Reachable Libm.real (-1) o := .create (show LambdarankNDCG.create Libm.real
      ⟨0, 1, false, 3, true, 1, [0, 1, 3]⟩ none ⟨fun d ↦ [1, 2, 0].getD d 0, none, some (3 * ·), 1⟩
      3 = _ from create_eq_ok_of one_pos rfl (by simp [checkLabel, List.range_succ]))
  have hs : IsSchedule o.numQueries o.numThreads [(0, 0)] := ⟨List.Perm.refl _, by decide⟩
  have hcnt : ∀ q < o.numQueries, o.cnt q ≤ o.truncationLevel := fun q hq ↦ by
    obtain rfl : q = 0 := Nat.lt_one_iff.mp hq
    exact le_rfl
  exact ⟨hr, rfl, hs, hcnt, getGradients_biases_from_call_costs Libm.real (-1) hr rfl hs score _ _ hcnt⟩

section Reals

/-- A pair of positive `delta_pair_NDCG` has a positive cost: its `p_lambda` lies in `(0, 1)`. -/
theorem pairCost_real_pos (kMinScore : ℝ) {o : LambdarankNDCG ℝ} (Q : Query ℝ)
    (hσ : 0 < o.sigmoid) (htable : o.sigmoidTable = constructSigmoidTable Libm.real o.sigmoid)
    {hr lr : ℕ} (hδ : 0 < deltaPairNDCG Libm.real kMinScore o Q hr lr) :
    0 < pairCost Libm.real kMinScore o Q hr lr := by
  have hp := getSigmoid_real_pos hσ (deltaScore Q hr lr)
  have hp' := (getSigmoid_real_mem o.sigmoid (deltaScore Q hr lr)).2
  unfold pairCost pairSigmoid
  rw [htable, Libm.real_log]
  exact mul_pos (Real.log_pos (one_lt_one_div (by linarith) (by linarith))) hδ

/-- `pow(c[r] / c[0], eta)` over the reals once rank `0` collected a positive cost: `1` at rank `0`
and positive at every rank that collected a positive cost. -/
theorem rpow_costRatio_pos {c : ℕ → ℝ} (h0 : 0 < c 0) (eta : ℝ) {r : ℕ} :
    Libm.real.pow (c 0 / c 0) eta = 1 ∧ (0 < c r → 0 < Libm.real.pow (c r / c 0) eta) :=
  ⟨by rw [Libm.real_pow, div_self h0.ne', Real.one_rpow], fun h ↦ by
    rw [Libm.real_pow]; exact Real.rpow_pos_of_pos (div_pos h h0) _⟩

/-- The run the statements below take, with `lambdarank_norm` set to `norm`: one query of three
documents with labels `[1, 2, 0]` and scores `[100, 50, 0]`, truncation level `3`; its pairs, its
inverse ideal DCG and the costs of two of its pairs. -/
theorem query_sample (norm : Bool) :
    let o := initPositionBiasesAndGradients (LambdarankNDCG.ofBase Libm.real
      ⟨0, 1, norm, 3, true, 1, [0, 1, 3]⟩ none ⟨0, 1, 3, fun d ↦ [1, 2, 0].getD d 0, none, (3 * ·)⟩)
    let Q : Query ℝ := ⟨0, 3, fun d ↦ [1, 2, 0].getD d 0, fun d ↦ [100, 50, 0].getD d 0⟩
    o.query (fun d ↦ [100, 50, 0].getD d 0) 0 = Q ∧ pairsOf (-1) o Q = [(1, 0), (0, 2), (1, 2)] ∧
      0 < o.inverseMaxDcgs 0 ∧ 0 < pairCost Libm.real (-1) o Q 0 2 ∧
      0 < pairCost Libm.real (-1) o Q 1 0 := by
  intro o Q
  have hs : sortedIdx Q = [0, 1, 2] := by
    simp [Q, sortedIdx, List.mergeSort, List.merge, List.range_succ]
    norm_num
  have hinv : 0 < o.inverseMaxDcgs 0 := by
    show 0 < inverseMaxDcg Libm.real [0, 1, 3] 3 3 (shiftBy (fun d ↦ [1, 2, 0].getD d 0) 0)
    have := getDiscount_real_pos 0
    have := getDiscount_real_pos 1
    have hideal : ((List.range 3).map fun d ↦ ([1, 2, 0] : List ℝ).getD d 0).mergeSort
        (fun a b ↦ b ≤ a) = [2, 1, 0] := by
      simp [List.range_succ, List.mergeSort, List.merge]
    simp only [shiftBy_zero, inverseMaxDcg, calMaxDCGAtK, hideal]
    simp [List.enum, List.enumFrom, labelGainAt, truncInt]
    positivity
  have hcost : ∀ {hr lr : ℕ}, labelGainAt [0, 1, 3] (Q.label (docAt Q lr)) <
      labelGainAt [0, 1, 3] (Q.label (docAt Q hr)) → hr ≠ lr →
        0 < pairCost Libm.real (-1) o Q hr lr :=
    fun hg hne ↦ pairCost_real_pos (-1) _ one_pos rfl (deltaPairNDCG_real_pos (-1) o _ hg hne hinv)
  refine ⟨by simp [RankingObjective.query, RankingObjective.cnt, RankingObjective.start, o,
    initPositionBiasesAndGradients, LambdarankNDCG.ofBase, Q], ?_, hinv,
    hcost (by simp only [docAt, hs]; simp [Q, labelGainAt, truncInt]) (by decide),
    hcost (by simp only [docAt, hs]; simp [Q, labelGainAt, truncInt]) (by decide)⟩
  simp [pairsOf, o, initPositionBiasesAndGradients, LambdarankNDCG.ofBase, contributingPairs,
    List.range_succ, List.range'_succ, List.filterMap_cons]
  simp only [pairRanks, docAt, hs]
  simp [Q]
  norm_num

/-- The first call of that run, on one thread: the object is reachable before and after it; rank
`0` collects a positive cost of each kind and keeps bias powers `1`, while rank `1`, never a low
rank of the call, collects no `j` cost and gets `j` bias power `0`. -/
theorem run_sample (norm : Bool) :
    let o := initPositionBiasesAndGradients (LambdarankNDCG.ofBase Libm.real
      ⟨0, 1, norm, 3, true, 1, [0, 1, 3]⟩ none ⟨0, 1, 3, fun d ↦ [1, 2, 0].getD d 0, none, (3 * ·)⟩)
    let score : ℕ → ℝ := fun d ↦ [100, 50, 0].getD d 0
    let o₁ := (o.getGradients Libm.real (-1) score [(0, 0)] (fun _ ↦ 0) (fun _ ↦ 0)).state
    Reachable Libm.real (-1) o ∧ IsSchedule o.numQueries o.numThreads [(0, 0)] ∧
      Reachable Libm.real (-1) o₁ ∧ 0 < roundICost Libm.real (-1) o score 0 ∧
      0 < roundJCost Libm.real (-1) o score 0 ∧ roundJCost Libm.real (-1) o score 1 = 0 ∧
      o₁.iBiasesPow 0 = 1 ∧ o₁.jBiasesPow 0 = 1 ∧ o₁.jBiasesPow 1 = 0 := by
  intro o score o₁
  let Q : Query ℝ := ⟨0, 3, fun d ↦ [1, 2, 0].getD d 0, fun d ↦ [100, 50, 0].getD d 0⟩
  obtain ⟨hQ, hp, -, hc₀₂, hc₁₀⟩ : o.query score 0 = Q ∧
    pairsOf (-1) o Q = [(1, 0), (0, 2), (1, 2)] ∧ 0 < o.inverseMaxDcgs 0 ∧
    0 < pairCost Libm.real (-1) o Q 0 2 ∧ 0 < pairCost Libm.real (-1) o Q 1 0 := query_sample norm
  have hr : Reachable Libm.real (-1) o := .create (show LambdarankNDCG.create Libm.real
      ⟨0, 1, norm, 3, true, 1, [0, 1, 3]⟩ none ⟨fun d ↦ [1, 2, 0].getD d 0, none, some (3 * ·), 1⟩
      3 = _ from create_eq_ok_of one_pos rfl (by simp [checkLabel, List.range_succ]))
  have hsch : IsSchedule o.numQueries o.numThreads [(0, 0)] :=
    ⟨List.Perm.refl _, fun p hp ↦ by rw [List.mem_singleton.mp hp]; exact one_pos⟩
  have hu : o.unbiased = true := rfl
  have hCi : 0 < roundICost Libm.real (-1) o score 0 := by
    have hb : o.jBiasesPow 2 = 1 := rfl
    rw [roundICost, show o.numQueries = 1 from rfl, Finset.sum_range_one, hQ]
    simpa [queryICost, hp, hu, hb] using hc₀₂
  have hCj : 0 < roundJCost Libm.real (-1) o score 0 := by
    have hb : o.iBiasesPow 1 = 1 := rfl
    rw [roundJCost, show o.numQueries = 1 from rfl, Finset.sum_range_one, hQ]
    simpa [queryJCost, hp, hu, hb] using hc₁₀
  have hCj₁ : roundJCost Libm.real (-1) o score 1 = 0 := by
    rw [roundJCost, show o.numQueries = 1 from rfl, Finset.sum_range_one, hQ]
    simp [queryJCost, hp]
  have hb := fun {r} (h : r < 3) ↦ getGradients_biasesPow Libm.real (-1)
    (costsCleared_of_reachable Libm.real (-1) hr) hu hsch score (fun _ ↦ 0) (fun _ ↦ 0) (r := r) h
  refine ⟨hr, hsch, .getGradients score [(0, 0)] _ _ hr hsch, hCi, hCj, hCj₁,
    (hb three_pos).1.trans (rpow_costRatio_pos hCi o.eta (r := 0)).1,
    (hb three_pos).2.trans (rpow_costRatio_pos hCj o.eta (r := 0)).1, ?_⟩
  rw [(hb (by decide : 1 < 3)).2, hCj₁, zero_div, Libm.real_pow, show o.eta = 1 from rfl,
    Real.rpow_one]

end Reals

/-- A team of two threads running query `0` on thread `1` is a run of the parallel loop, yet the
objective built outside every parallel region creates one buffer row, and the query's costs are
added to row `1`. -/
theorem getGradients_thread_past_buffers :
    IsSchedule 1 2 [(0, 1)] ∧
      let o := initPositionBiasesAndGradients (LambdarankNDCG.ofBase Libm.real
        ⟨0, 1, false, 3, true, 1, [0, 1, 3]⟩ none ⟨0, 1, 3, fun d ↦ [1, 2, 0].getD d 0, none, (3 * ·)⟩)
      Reachable Libm.real (-1) o ∧ o.numQueries = 1 ∧ o.numThreads = 1 ∧
        ¬ (∀ p ∈ [(0, 1)], p.2 < o.numThreads) ∧
        0 < (o.toRankingObjective.getGradients (lambdarankOneQuery Libm.real (-1))
          (fun d ↦ [100, 50, 0].getD d 0) [(0, 1)] ⟨fun _ ↦ 0, fun _ ↦ 0, o⟩).state.iCostsBuffer 1 0 := by
  refine ⟨⟨List.Perm.refl _, by decide⟩, ?_⟩
  intro o
  let Q : Query ℝ := ⟨0, 3, fun d ↦ [1, 2, 0].getD d 0, fun d ↦ [100, 50, 0].getD d 0⟩
  obtain ⟨hQ, hp, -, hc₀₂, -⟩ : o.query (fun d ↦ [100, 50, 0].getD d 0) 0 = Q ∧
    pairsOf (-1) o Q = [(1, 0), (0, 2), (1, 2)] ∧ 0 < o.inverseMaxDcgs 0 ∧
    0 < pairCost Libm.real (-1) o Q 0 2 ∧ 0 < pairCost Libm.real (-1) o Q 1 0 := query_sample false
  have hr : Reachable Libm.real (-1) o := .create (show LambdarankNDCG.create Libm.real
      ⟨0, 1, false, 3, true, 1, [0, 1, 3]⟩ none ⟨fun d ↦ [1, 2, 0].getD d 0, none, some (3 * ·), 1⟩
      3 = _ from create_eq_ok_of one_pos rfl (by simp [checkLabel, List.range_succ]))
  have hu : o.unbiased = true := rfl
  have hb : o.jBiasesPow 2 = 1 := rfl
  have hbuf : o.iCostsBuffer 1 0 = 0 := rfl
  refine ⟨hr, rfl, rfl, by decide, ?_⟩
  rw [getGradients_lambdarankOneQuery_state Libm.real (-1) _ _ o [(0, 1)] _ o.iCostsBuffer
    o.jCostsBuffer rfl]
  simp only [LambdarankNDCG.withBuffers_iCostsBuffer, List.map_cons, List.map_nil, List.sum_cons,
    List.sum_nil, hQ]
  simpa [hbuf, queryICost, hp, hu, hb] using hc₀₂

end RankObjective
