import RankObjective.Basic

/-!
# The DCG quantities the pairwise objective reads

`DCGCalculator` lies outside the source.  What `LambdarankNDCG` takes from it, the default gain
table, the position discount, the ideal DCG of a query and the label check of `Init`, is modelled
here from the spec, together with the gain lookup `label_gain_[static_cast<int>(label)]` of the
source.  Over `ℝ`, with a non-negative gain table, the ideal DCG and hence the cached inverse are
non-negative.
-/

namespace RankObjective

variable {K : Type} [LinearOrderedField K] [FloorRing K]

/-- `label_gain_[static_cast<int>(label)]`; a read outside the table is read as `0`. -/
def labelGainAt (labelGain : List K) (label : K) : K :=
  match truncInt label with
  | Int.ofNat n => labelGain.getD n 0
  | Int.negSucc _ => 0

@[simp] theorem labelGainAt_natCast (labelGain : List K) (n : ℕ) :
    labelGainAt labelGain (n : K) = labelGain.getD n 0 := by
  simp [labelGainAt]

omit [FloorRing K] in
theorem getD_nonneg {l : List K} (h : ∀ g ∈ l, 0 ≤ g) (n : ℕ) : 0 ≤ l.getD n 0 := by
  rw [List.getD_eq_getElem?_getD]
  cases hn : l[n]? with
  | none => exact le_rfl
  | some g => exact h g (List.getElem?_mem hn)

theorem labelGainAt_nonneg {labelGain : List K} (h : ∀ g ∈ labelGain, 0 ≤ g) (label : K) :
    0 ≤ labelGainAt labelGain label := by
  unfold labelGainAt
  split
  · exact getD_nonneg h _
  · exact le_rfl

/-- A non-decreasing gain table gives the higher of two in-range integer labels the larger gain. -/
theorem labelGainAt_le {labelGain : List K} (h : labelGain.Sorted (· ≤ ·)) {m n : ℕ}
    (hmn : m ≤ n) (hn : n < labelGain.length) :
    labelGainAt labelGain (m : K) ≤ labelGainAt labelGain (n : K) := by
  rw [labelGainAt_natCast, labelGainAt_natCast, List.getD_eq_getElem _ _ (by omega),
    List.getD_eq_getElem _ _ hn]
  exact h.rel_get_of_le (a := ⟨m, by omega⟩) (b := ⟨n, hn⟩) hmn

omit [FloorRing K] in
/-- Modelled from the spec: `DCGCalculator::DefaultLabelGain`, which the constructor runs on
`label_gain_` (line 110).  A given table stays as it is; an empty one is filled with the gain
`2^l - 1` of each relevance level `l` ("defaults to `2^label - 1` if unset").  The spec leaves the
number of levels open; the model fills the levels `0` to `30`, the last for which `1 << l` fits a
32-bit `int`. -/
def defaultLabelGain : List K → List K
  | [] => (List.range 31).map fun l ↦ 2 ^ l - 1
  | g :: gs => g :: gs

omit [FloorRing K] in
@[simp] theorem defaultLabelGain_cons (g : K) (gs : List K) :
    defaultLabelGain (g :: gs) = g :: gs := rfl

omit [FloorRing K] in
theorem defaultLabelGain_of_ne_nil {labelGain : List K} (h : labelGain ≠ []) :
    defaultLabelGain labelGain = labelGain := by
  cases labelGain with
  | nil => exact absurd rfl h
  | cons g gs => rfl

omit [FloorRing K] in
/-- The default gains are non-negative, so every table the constructor keeps is when the given one
is. -/
theorem defaultLabelGain_nonneg {labelGain : List K} (h : ∀ g ∈ labelGain, 0 ≤ g) :
    ∀ g ∈ defaultLabelGain labelGain, 0 ≤ g := by
  cases labelGain with
  | nil =>
    simp only [defaultLabelGain, List.mem_map, List.mem_range]
    rintro _ ⟨l, -, rfl⟩
    exact sub_nonneg.mpr (one_le_pow₀ one_le_two)
  | cons g gs => exact h

/-- Modelled from the spec: `DCGCalculator::GetDiscount(k)`, the discount `1 / log2(2 + k)` of
rank `k` (the comment at line 236 of the source). -/
def getDiscount (L : Libm K) (k : ℕ) : K := 1 / L.log2 (2 + k)

theorem getDiscount_real_pos (k : ℕ) : 0 < getDiscount Libm.real k :=
  one_div_pos.mpr (Libm.real_log2_pos (by norm_cast; omega))

/-- Over `ℝ` the discount falls strictly with the rank. -/
theorem getDiscount_real_lt {m n : ℕ} (h : m < n) :
    getDiscount Libm.real n < getDiscount Libm.real m := by
  unfold getDiscount
  refine one_div_lt_one_div_of_lt (Libm.real_log2_pos (by norm_cast; omega)) ?_
  simp only [Libm.real_log2]
  exact Real.logb_lt_logb one_lt_two (by positivity) (by norm_cast; omega)

/-- Modelled from the spec: `DCGCalculator::CalMaxDCGAtK(k, label, cnt)`, the DCG at depth `k`
of the query's documents ranked by label, "the ideal (label-sorted) DCG at the truncation
level". -/
def calMaxDCGAtK (L : Libm K) (labelGain : List K) (k cnt : ℕ) (label : ℕ → K) : K :=
  let ideal := ((List.range cnt).map label).mergeSort fun a b ↦ b ≤ a
  ((ideal.take k).enum.map fun p ↦ labelGainAt labelGain p.2 * getDiscount L p.1).sum

/-- One iteration of the loop of `LambdarankNDCG::Init` that fills `inverse_max_dcgs_`. -/
def inverseMaxDcg (L : Libm K) (labelGain : List K) (truncationLevel cnt : ℕ)
    (label : ℕ → K) : K :=
  let maxDcg := calMaxDCGAtK L labelGain truncationLevel cnt label
  if 0 < maxDcg then 1 / maxDcg else maxDcg

/-- The inverse ideal DCG of a query reads the labels of its own documents only. -/
theorem inverseMaxDcg_congr (L : Libm K) (labelGain : List K) (truncationLevel cnt : ℕ)
    {label₁ label₂ : ℕ → K} (h : ∀ d < cnt, label₁ d = label₂ d) :
    inverseMaxDcg L labelGain truncationLevel cnt label₁ =
      inverseMaxDcg L labelGain truncationLevel cnt label₂ := by
  have hl : (List.range cnt).map label₁ = (List.range cnt).map label₂ :=
    List.map_congr_left fun d hd ↦ h d (List.mem_range.mp hd)
  simp only [inverseMaxDcg, calMaxDCGAtK, hl]

theorem calMaxDCGAtK_real_nonneg {labelGain : List ℝ} (h : ∀ g ∈ labelGain, 0 ≤ g)
    (k cnt : ℕ) (label : ℕ → ℝ) : 0 ≤ calMaxDCGAtK Libm.real labelGain k cnt label := by
  refine List.sum_nonneg fun x hx ↦ ?_
  obtain ⟨p, -, rfl⟩ := List.mem_map.mp hx
  exact mul_nonneg (labelGainAt_nonneg h _) (getDiscount_real_pos _).le

theorem inverseMaxDcg_real_nonneg {labelGain : List ℝ} (h : ∀ g ∈ labelGain, 0 ≤ g)
    (truncationLevel cnt : ℕ) (label : ℕ → ℝ) :
    0 ≤ inverseMaxDcg Libm.real labelGain truncationLevel cnt label := by
  have hm := calMaxDCGAtK_real_nonneg h truncationLevel cnt label
  dsimp only [inverseMaxDcg]
  split_ifs <;> positivity

/-- Modelled from the spec: `DCGCalculator::CheckLabel`, which `Init` runs on every label: each
is a non-negative integer below the size of the gain table. -/
def checkLabel (labelGain : List K) (numData : ℕ) (label : ℕ → K) : Bool :=
  (List.range numData).all fun i ↦
    decide (0 ≤ label i) && decide ((⌊label i⌋₊ : K) = label i) &&
      decide (⌊label i⌋₊ < labelGain.length)

end RankObjective
