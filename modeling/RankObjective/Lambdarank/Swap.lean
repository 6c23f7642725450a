import RankObjective.Lambdarank.Bias

/-!
# `delta_pair_NDCG` as a swap of DCG

The weight `dcg_gap * paired_discount * inverse_max_dcg` of a pair (lines 240-263) is the change
of the query's normalised DCG when the two documents of the pair exchange their ranks.  Exchanging
ranks `h` and `l` changes only the terms at `h` and `l` of the untruncated DCG, by
`(gain h - gain l) * (discount h - discount l)`; the pair loop only pairs documents with
different labels, the higher label first, and with labels that pass the check of `Init` and a
non-decreasing gain table the gain gap is non-negative, so the absolute value falls on the
discounts alone.
-/

namespace RankObjective

variable {K : Type} [LinearOrderedField K] [FloorRing K]

/-- The untruncated DCG of a ranking `s` of the query's documents,
`Σ_{r < cnt} label_gain_[label[s r]] * GetDiscount(r)`: the quantity whose change under an
exchange of two ranks the pair weight measures. -/
def rankingDCG (L : Libm K) (labelGain : List K) (Q : Query K) (s : ℕ → ℕ) : K :=
  ∑ r in Finset.range Q.cnt, labelGainAt labelGain (Q.label (s r)) * getDiscount L r

/-- Labels that pass the check of `Init` get gains in the order of the labels. -/
theorem labelGainAt_le_of_checkLabel {labelGain : List K} (hs : labelGain.Sorted (· ≤ ·))
    {n : ℕ} {label : ℕ → K} (hl : checkLabel labelGain n label = true) {a b : ℕ} (ha : a < n)
    (hb : b < n) (hab : label a ≤ label b) :
    labelGainAt labelGain (label a) ≤ labelGainAt labelGain (label b) := by
  simp only [checkLabel, List.all_eq_true, List.mem_range, Bool.and_eq_true,
    decide_eq_true_eq] at hl
  obtain ⟨⟨-, hfa⟩, -⟩ := hl a ha
  obtain ⟨⟨hb₀, hfb⟩, hbl⟩ := hl b hb
  rw [← hfa, ← hfb] at hab ⊢
  exact labelGainAt_le hs (Nat.cast_le.mp hab) hbl

/-- The check of `Init` passes on every slice of the checked labels. -/
theorem checkLabel_shiftBy {labelGain : List K} {n : ℕ} {label : ℕ → K}
    (hl : checkLabel labelGain n label = true) {start cnt : ℕ} (hle : start + cnt ≤ n) :
    checkLabel labelGain cnt (shiftBy label start) = true := by
  simp only [checkLabel, List.all_eq_true, List.mem_range, shiftBy] at hl ⊢
  exact fun d hd ↦ hl (start + d) (by omega)

/-- Every query a built objective hands to the routine has labels that pass the check of `Init`. -/
theorem checkLabel_query_of_create {L : Libm K} {config : Config K} {team : Option ℕ}
    {metadata : Metadata K} {numData : ℕ} {o : LambdarankNDCG K}
    (h : LambdarankNDCG.create L config team metadata numData = .ok o) (hb : o.Partitions)
    (score : ℕ → K) {q : ℕ} (hq : q < o.numQueries) :
    checkLabel o.labelGain (o.query score q).cnt (o.query score q).label = true := by
  refine checkLabel_shiftBy (create_checkLabel h) ?_
  have h₁ : o.queryBoundaries q ≤ o.queryBoundaries (q + 1) := hb.2.2 q hq
  have h₂ : o.queryBoundaries (q + 1) ≤ o.numData := hb.2.1 ▸ o.queryBoundaries_mono hb hq le_rfl
  show o.queryBoundaries q + (o.queryBoundaries (q + 1) - o.queryBoundaries q) ≤ o.numData
  omega

/-- Exchanging the documents at ranks `h ≠ l` changes the DCG by the product of the gain gap and
the discount gap. -/
theorem rankingDCG_sub_swap (L : Libm K) (labelGain : List K) (Q : Query K) (s : ℕ → ℕ)
    {h l : ℕ} (hh : h < Q.cnt) (hl : l < Q.cnt) (hne : h ≠ l) :
    rankingDCG L labelGain Q s - rankingDCG L labelGain Q (s ∘ Equiv.swap h l) =
      (labelGainAt labelGain (Q.label (s h)) - labelGainAt labelGain (Q.label (s l))) *
        (getDiscount L h - getDiscount L l) := by
  rw [rankingDCG, rankingDCG, ← Finset.sum_sub_distrib,
    Finset.sum_eq_add_of_mem h l (Finset.mem_range.mpr hh) (Finset.mem_range.mpr hl) hne
      fun r _ hr ↦ by simp [Equiv.swap_apply_of_ne_of_ne hr.1 hr.2]]
  simp only [Function.comp_apply, Equiv.swap_apply_left, Equiv.swap_apply_right]
  ring

/-- On every pair the loop visits, `delta_pair_NDCG` before the score-distance regularisation of
line 267 is `inverse_max_dcg * |DCG(sorted_idx) - DCG(sorted_idx with the pair exchanged)|`, for a
non-decreasing gain table and labels that pass the check of `Init` (as every query of a built
objective does, `checkLabel_query_of_create`). -/
theorem deltaPairNDCG_eq_swap (L : Libm K) (kMinScore : K) (o : LambdarankNDCG K) (Q : Query K)
    (hs : o.labelGain.Sorted (· ≤ ·)) (hl : checkLabel o.labelGain Q.cnt Q.label = true)
    {p : ℕ × ℕ} (hp : p ∈ contributingPairs kMinScore Q o.truncationLevel) :
    deltaPairNDCG L kMinScore o Q p.1 p.2 =
      if (o.norm = true ∨ o.unbiased = true) ∧ bestScore Q ≠ worstScore kMinScore Q then
        o.inverseMaxDcgs Q.queryId * |rankingDCG L o.labelGain Q (docAt Q) -
          rankingDCG L o.labelGain Q (docAt Q ∘ Equiv.swap p.1 p.2)| /
            (1 / 100 + |deltaScore Q p.1 p.2|)
      else o.inverseMaxDcgs Q.queryId * |rankingDCG L o.labelGain Q (docAt Q) -
        rankingDCG L o.labelGain Q (docAt Q ∘ Equiv.swap p.1 p.2)| := by
  obtain ⟨h₁, h₂, hlab, -⟩ := contributingPairs_spec kMinScore Q hp
  have hgap := labelGainAt_le_of_checkLabel hs hl (docAt_lt Q h₂) (docAt_lt Q h₁) hlab.le
  have hne : p.1 ≠ p.2 := fun h ↦ hlab.ne (by rw [h])
  have hswap : o.inverseMaxDcgs Q.queryId * |rankingDCG L o.labelGain Q (docAt Q) -
      rankingDCG L o.labelGain Q (docAt Q ∘ Equiv.swap p.1 p.2)| =
        (labelGainAt o.labelGain (Q.label (docAt Q p.1)) -
          labelGainAt o.labelGain (Q.label (docAt Q p.2))) *
          |getDiscount L p.1 - getDiscount L p.2| * o.inverseMaxDcgs Q.queryId := by
    rw [rankingDCG_sub_swap L o.labelGain Q (docAt Q) h₁ h₂ hne, abs_mul,
      abs_of_nonneg (sub_nonneg.mpr hgap)]
    ring
  rw [hswap]
  rfl

/-- Two documents with labels `1` and `0` and scores `1` and `0`, gains `[0, 1]`. -/
theorem deltaPairNDCG_eq_swap_sample :
    let o : LambdarankNDCG ℝ := { (default : LambdarankNDCG ℝ) with
      truncationLevel := 2, labelGain := [0, 1], inverseMaxDcgs := fun _ ↦ 1 }
    let Q : Query ℝ := ⟨0, 2, fun d ↦ [1, 0].getD d 0, fun d ↦ [1, 0].getD d 0⟩
    deltaPairNDCG Libm.real (-1) o Q 0 1 =
      |rankingDCG Libm.real [0, 1] Q (docAt Q) -
        rankingDCG Libm.real [0, 1] Q (docAt Q ∘ Equiv.swap 0 1)| := by
  intro o Q
  have hsort : sortedIdx Q = [0, 1] := by
    simp [Q, sortedIdx, List.mergeSort, List.merge, List.range_succ]
  have hp : ((0, 1) : ℕ × ℕ) ∈ contributingPairs (-1) Q o.truncationLevel := by
    simp [contributingPairs, show o.truncationLevel = 2 from rfl, show Q.cnt = 2 from rfl,
      List.range_succ, List.range'_succ, pairRanks, docAt, hsort,
      show Q.label = fun d ↦ [1, 0].getD d 0 from rfl, show Q.score = fun d ↦ [1, 0].getD d 0 from rfl]
    norm_num
  rw [deltaPairNDCG_eq_swap Libm.real (-1) o Q (by simp [o]) (by simp [o, Q, checkLabel, List.range_succ]) hp,
    if_neg (by simp [o])]
  exact one_mul _

end RankObjective
