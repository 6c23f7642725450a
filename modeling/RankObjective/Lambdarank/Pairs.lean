import RankObjective.Lambdarank.Query

/-!
# The pairs the pair loop accumulates

The two nested loops of `GetGradientsForOneQuery` perform `accumulatePair` on exactly the pairs of
`contributingPairs`, in loop order.  Each such pair joins two documents of the query with distinct
labels and scores other than `kMinScore`, the first of higher label, and every such pair with one
rank inside the truncation window is visited exactly once.  One update subtracts the
pair's lambda from one document and adds it to the other, adds its hessian to both, and adds its
bias cost at the two ranks; over a list of pairs this gives closed forms for every field.
-/

namespace RankObjective

variable {K : Type} [LinearOrderedField K]

section Pairs

variable (L : Libm K) (kMinScore : K) (o : LambdarankNDCG K) (Q : Query K)

/-- The pairs of ranks `(high_rank, low_rank)` on which the pair loop performs its update, for
the truncation level `T`, in loop order. -/
def contributingPairs (T : ℕ) : List (ℕ × ℕ) :=
  (List.range (min (Q.cnt - 1) T)).flatMap fun i ↦
    if Q.score (docAt Q i) = kMinScore then []
    else (List.range' (i + 1) (Q.cnt - (i + 1))).filterMap (pairRanks kMinScore Q i)

theorem length_sortedIdx : (sortedIdx Q).length = Q.cnt := by
  simp [sortedIdx]

theorem docAt_lt {r : ℕ} (hr : r < Q.cnt) : docAt Q r < Q.cnt := by
  have hr' : r < (sortedIdx Q).length := by rwa [length_sortedIdx]
  have hmem : (sortedIdx Q)[r] ∈ List.range Q.cnt := List.mem_mergeSort.mp (List.getElem_mem hr')
  rw [docAt, List.getD_eq_getElem _ _ hr']
  exact List.mem_range.mp hmem

theorem pairRanks_eq_some {i j : ℕ} {p : ℕ × ℕ} (h : pairRanks kMinScore Q i j = some p) :
    Q.score (docAt Q j) ≠ kMinScore ∧ Q.label (docAt Q p.2) < Q.label (docAt Q p.1) ∧
      (p = (i, j) ∨ p = (j, i)) := by
  unfold pairRanks at h
  split_ifs at h with h₁ h₂ h₃ <;> cases h
  · exact ⟨h₁, h₃, .inl rfl⟩
  · exact ⟨h₁, lt_of_le_of_ne (not_lt.mp h₃) h₂, .inr rfl⟩

theorem mem_contributingPairs {T : ℕ} {p : ℕ × ℕ} :
    p ∈ contributingPairs kMinScore Q T ↔
      ∃ i j, i < min (Q.cnt - 1) T ∧ Q.score (docAt Q i) ≠ kMinScore ∧ i < j ∧ j < Q.cnt ∧
        pairRanks kMinScore Q i j = some p := by
  simp only [contributingPairs, List.mem_flatMap, List.mem_range]
  constructor
  · rintro ⟨i, hi, hp⟩
    split_ifs at hp with hs
    · simp at hp
    · obtain ⟨j, hj, hpj⟩ := List.mem_filterMap.mp hp
      rw [List.mem_range'_1] at hj
      exact ⟨i, j, hi, hs, by omega, by omega, hpj⟩
  · rintro ⟨i, j, hi, hs, hij, hj, hpj⟩
    refine ⟨i, hi, ?_⟩
    rw [if_neg hs]
    exact List.mem_filterMap.mpr ⟨j, List.mem_range'_1.mpr ⟨by omega, by omega⟩, hpj⟩

/-- What every contributing pair is: two ranks of the query, the first of them holding the
document of higher label, neither document holding `kMinScore`, and one rank inside the
truncation window. -/
theorem contributingPairs_spec {T : ℕ} {p : ℕ × ℕ} (hp : p ∈ contributingPairs kMinScore Q T) :
    p.1 < Q.cnt ∧ p.2 < Q.cnt ∧ Q.label (docAt Q p.2) < Q.label (docAt Q p.1) ∧
      Q.score (docAt Q p.1) ≠ kMinScore ∧ Q.score (docAt Q p.2) ≠ kMinScore ∧
        min p.1 p.2 < T := by
  obtain ⟨i, j, hi, hs, hij, hj, hpj⟩ := (mem_contributingPairs kMinScore Q).mp hp
  obtain ⟨hsj, hlab, rfl | rfl⟩ := pairRanks_eq_some kMinScore Q hpj
  · exact ⟨by omega, hj, hlab, hs, hsj, by simp only [min_def]; split_ifs <;> omega⟩
  · exact ⟨hj, by omega, hlab, hsj, hs, by simp only [min_def]; split_ifs <;> omega⟩

/-- Every pair of row `i` of the loop has `i` as its smaller rank. -/
theorem min_eq_of_pairRanks {i j : ℕ} {p : ℕ × ℕ} (hij : i < j)
    (h : pairRanks kMinScore Q i j = some p) : min p.1 p.2 = i := by
  obtain ⟨-, -, rfl | rfl⟩ := pairRanks_eq_some kMinScore Q h
  · exact min_eq_left hij.le
  · exact min_eq_right hij.le

/-- The nested loops visit exactly the pairs of ranks whose documents have different labels and
scores other than `kMinScore`, one of the two ranks inside the truncation window, each of them
once, higher label first. -/
theorem contributingPairs_exactly_once (T : ℕ) :
    (contributingPairs kMinScore Q T).Nodup ∧ ∀ h l : ℕ,
      (h, l) ∈ contributingPairs kMinScore Q T ↔
        h < Q.cnt ∧ l < Q.cnt ∧ Q.label (docAt Q l) < Q.label (docAt Q h) ∧
          Q.score (docAt Q h) ≠ kMinScore ∧ Q.score (docAt Q l) ≠ kMinScore ∧ min h l < T := by
  -- the pairs of row `i` have `i` as their smaller rank
  have hrow : ∀ i p, p ∈ (if Q.score (docAt Q i) = kMinScore then [] else
      (List.range' (i + 1) (Q.cnt - (i + 1))).filterMap (pairRanks kMinScore Q i)) →
        min p.1 p.2 = i := fun i p hp ↦ by
    split_ifs at hp
    · simp at hp
    · obtain ⟨j, hj, hpj⟩ := List.mem_filterMap.mp hp
      exact min_eq_of_pairRanks kMinScore Q (by rw [List.mem_range'_1] at hj; omega) hpj
  refine ⟨List.nodup_flatMap.mpr ⟨fun i _ ↦ ?_, (List.pairwise_lt_range _).imp fun hab p ha hb ↦
    hab.ne ((hrow _ p ha).symm.trans (hrow _ p hb))⟩, fun h l ↦ ⟨contributingPairs_spec kMinScore Q, ?_⟩⟩
  · split_ifs
    · exact List.nodup_nil
    · refine (List.nodup_range' _ _).filterMap fun j j' p hj hj' ↦ ?_
      obtain ⟨-, -, h₁⟩ := pairRanks_eq_some kMinScore Q hj
      obtain ⟨-, -, h₂⟩ := pairRanks_eq_some kMinScore Q hj'
      rcases h₁ with rfl | rfl <;> rcases h₂ with h₂ | h₂ <;> simp only [Prod.mk.injEq] at h₂ <;> omega
  · rintro ⟨hh, hl, hlab, hsh, hsl, hT⟩
    refine (mem_contributingPairs kMinScore Q).mpr ?_
    rcases lt_or_gt_of_ne (fun e : h = l ↦ (e ▸ hlab).false) with hlt | hlt
    · refine ⟨h, l, lt_min (by omega) (by rwa [min_eq_left hlt.le] at hT), hsh, hlt, hl, ?_⟩
      simp only [pairRanks, if_neg hsl, if_neg hlab.ne', if_pos hlab]
    · refine ⟨l, h, lt_min (by omega) (by rwa [min_eq_right hlt.le] at hT), hsl, hlt, hh, ?_⟩
      simp only [pairRanks, if_neg hsh, if_neg hlab.ne, if_neg (not_lt.mpr hlab.le)]
variable [FloorRing K]

/-- `accumulatePair` over a list of pairs, in order. -/
def accumulatePairs (ps : List (ℕ × ℕ)) (acc : PairLoop K) : PairLoop K :=
  ps.foldl (fun acc p ↦ accumulatePair L kMinScore o Q acc p.1 p.2) acc

theorem foldl_pairStep (i : ℕ) (js : List ℕ) (acc : PairLoop K) :
    js.foldl (fun acc j ↦ pairStep L kMinScore o Q acc i j) acc =
      (js.filterMap (pairRanks kMinScore Q i)).foldl
        (fun acc p ↦ accumulatePair L kMinScore o Q acc p.1 p.2) acc := by
  induction js generalizing acc with
  | nil => rfl
  | cons j js ih =>
    cases h : pairRanks kMinScore Q i j <;>
      rw [List.foldl_cons, List.filterMap_cons, h, pairStep, h] <;> exact ih _

/-- The nested loops are one loop over `contributingPairs`. -/
theorem pairLoop_eq_foldl (init : PairLoop K) :
    pairLoop L kMinScore o Q init =
      accumulatePairs L kMinScore o Q (contributingPairs kMinScore Q o.truncationLevel) init := by
  unfold pairLoop contributingPairs accumulatePairs
  simp only [foldl_pairStep]
  generalize List.range (min (Q.cnt - 1) o.truncationLevel) = is
  induction is generalizing init with
  | nil => rfl
  | cons i is ih =>
    rw [List.foldl_cons, List.flatMap_cons, List.foldl_append, ← ih]
    split_ifs <;> rfl

/-- The update of one pair: its lambda leaves the lower document and reaches the higher one. -/
theorem accumulatePair_lambdas (acc : PairLoop K) (hr lr d : ℕ) :
    (accumulatePair L kMinScore o Q acc hr lr).lambdas d = acc.lambdas d +
      ((if d = docAt Q hr then pairLambda L kMinScore o Q hr lr else 0) -
        (if d = docAt Q lr then pairLambda L kMinScore o Q hr lr else 0)) := by
  simp only [accumulatePair, Function.update_apply]
  split_ifs <;> simp_all
  ring

/-- The update of one pair adds its hessian to both documents. -/
theorem accumulatePair_hessians (acc : PairLoop K) (hr lr d : ℕ) :
    (accumulatePair L kMinScore o Q acc hr lr).hessians d = acc.hessians d +
      ((if d = docAt Q hr then pairHessian L kMinScore o Q hr lr else 0) +
        (if d = docAt Q lr then pairHessian L kMinScore o Q hr lr else 0)) := by
  simp only [accumulatePair, Function.update_apply]
  split_ifs <;> simp_all
  ring

/-- The update of one pair adds its bias cost at the high rank of the `i` row. -/
theorem accumulatePair_iCosts (acc : PairLoop K) (hr lr r : ℕ) :
    (accumulatePair L kMinScore o Q acc hr lr).iCosts r = acc.iCosts r +
      if o.unbiased = true ∧ r = hr then
        pairCost L kMinScore o Q hr lr / o.jBiasesPow lr else 0 := by
  by_cases hu : o.unbiased = true <;> by_cases h : r = hr <;>
    simp [accumulatePair, Function.update_apply, hu, h]

/-- The update of one pair adds its bias cost at the low rank of the `j` row. -/
theorem accumulatePair_jCosts (acc : PairLoop K) (hr lr r : ℕ) :
    (accumulatePair L kMinScore o Q acc hr lr).jCosts r = acc.jCosts r +
      if o.unbiased = true ∧ r = lr then
        pairCost L kMinScore o Q hr lr / o.iBiasesPow hr else 0 := by
  by_cases hu : o.unbiased = true <;> by_cases h : r = lr <;>
    simp [accumulatePair, Function.update_apply, hu, h]

theorem accumulatePairs_lambdas (ps : List (ℕ × ℕ)) (acc : PairLoop K) (d : ℕ) :
    (accumulatePairs L kMinScore o Q ps acc).lambdas d = acc.lambdas d +
      (ps.map fun p ↦ (if d = docAt Q p.1 then pairLambda L kMinScore o Q p.1 p.2 else 0) -
        (if d = docAt Q p.2 then pairLambda L kMinScore o Q p.1 p.2 else 0)).sum := by
  induction ps generalizing acc with
  | nil => simp [accumulatePairs]
  | cons p ps ih =>
    simp only [accumulatePairs, List.foldl_cons] at ih ⊢
    rw [ih, accumulatePair_lambdas, List.map_cons, List.sum_cons, add_assoc]

theorem accumulatePairs_hessians (ps : List (ℕ × ℕ)) (acc : PairLoop K) (d : ℕ) :
    (accumulatePairs L kMinScore o Q ps acc).hessians d = acc.hessians d +
      (ps.map fun p ↦ (if d = docAt Q p.1 then pairHessian L kMinScore o Q p.1 p.2 else 0) +
        (if d = docAt Q p.2 then pairHessian L kMinScore o Q p.1 p.2 else 0)).sum := by
  induction ps generalizing acc with
  | nil => simp [accumulatePairs]
  | cons p ps ih =>
    simp only [accumulatePairs, List.foldl_cons] at ih ⊢
    rw [ih, accumulatePair_hessians, List.map_cons, List.sum_cons, add_assoc]

theorem accumulatePairs_iCosts (ps : List (ℕ × ℕ)) (acc : PairLoop K) (r : ℕ) :
    (accumulatePairs L kMinScore o Q ps acc).iCosts r = acc.iCosts r +
      (ps.map fun p ↦ if o.unbiased = true ∧ r = p.1 then
        pairCost L kMinScore o Q p.1 p.2 / o.jBiasesPow p.2 else 0).sum := by
  induction ps generalizing acc with
  | nil => simp [accumulatePairs]
  | cons p ps ih =>
    simp only [accumulatePairs, List.foldl_cons] at ih ⊢
    rw [ih, accumulatePair_iCosts, List.map_cons, List.sum_cons, add_assoc]

theorem accumulatePairs_jCosts (ps : List (ℕ × ℕ)) (acc : PairLoop K) (r : ℕ) :
    (accumulatePairs L kMinScore o Q ps acc).jCosts r = acc.jCosts r +
      (ps.map fun p ↦ if o.unbiased = true ∧ r = p.2 then
        pairCost L kMinScore o Q p.1 p.2 / o.iBiasesPow p.1 else 0).sum := by
  induction ps generalizing acc with
  | nil => simp [accumulatePairs]
  | cons p ps ih =>
    simp only [accumulatePairs, List.foldl_cons] at ih ⊢
    rw [ih, accumulatePair_jCosts, List.map_cons, List.sum_cons, add_assoc]

theorem accumulatePairs_sumLambdas (ps : List (ℕ × ℕ)) (acc : PairLoop K) :
    (accumulatePairs L kMinScore o Q ps acc).sumLambdas = acc.sumLambdas -
      (ps.map fun p ↦ 2 * pairLambda L kMinScore o Q p.1 p.2).sum := by
  induction ps generalizing acc with
  | nil => simp [accumulatePairs]
  | cons p ps ih =>
    simp only [accumulatePairs, List.foldl_cons] at ih ⊢
    rw [ih, List.map_cons, List.sum_cons, sub_add_eq_sub_sub]
    rfl

end Pairs

end RankObjective
