import RankObjective.Lambdarank.Ranked

/-!
# Settings that change no gradient

Two settings of `LambdarankNDCG` have no effect on what it writes.

`UpdatePositionBiasesAndGradients` sets each bias power below `truncation_level_` to
`pow(Ci[r] / Ci[0], eta_)`, and `pow(x, 0)` is `1` for every `x`, a ratio `0 / 0` included.  With
`lambdarank_eta = 0` a training run keeps the bias powers `InitPositionBiasesAndGradients` set:
every state of the run is the constructed object up to its cost vectors and buffers, which no
lambda or hessian reads, so every call writes what the same call on the constructed object writes.

A truncation level at or past a query's size cuts nothing: `Init` caches the same inverse ideal
DCG for every such level, and the pair loop visits every pair of ranks.  The loop is the same
already from `truncation_level_ = cnt - 1` on, but at that level the code reads the bias powers and
buffer rows of rank `cnt - 1`, past vectors of `truncation_level_` entries.
-/

namespace RankObjective

variable {K : Type} [LinearOrderedField K] [FloorRing K] (L : Libm K) (kMinScore : K)

section Eta

/-- The object with its cost vectors and cost buffers cleared: what remains is all that the
lambdas and hessians read. -/
def LambdarankNDCG.eraseCosts (o : LambdarankNDCG K) : LambdarankNDCG K :=
  { o with
    iCosts := fun _ ↦ 0
    jCosts := fun _ ↦ 0
    iCostsBuffer := fun _ _ ↦ 0
    jCostsBuffer := fun _ _ ↦ 0 }

omit [FloorRing K] in
@[simp] theorem LambdarankNDCG.eraseCosts_withBuffers (o : LambdarankNDCG K) (A B : ℕ → ℕ → K) :
    (o.withBuffers A B).eraseCosts = o.eraseCosts := rfl

omit [FloorRing K] in
/-- Objects equal up to their costs are alike for every query on every rank. -/
theorem alikeFor_of_eraseCosts {o₁ o₂ : LambdarankNDCG K} (h : o₁.eraseCosts = o₂.eraseCosts)
    (q n : ℕ) : o₁.AlikeFor o₂ q n :=
  ⟨congrArg (·.sigmoid) h, congrArg (·.norm) h, congrArg (·.truncationLevel) h,
    congrArg (·.unbiased) h, congrArg (·.labelGain) h, congrArg (·.sigmoidTable) h,
    congrArg (·.inverseMaxDcgs q) h, fun r _ ↦ congrArg (·.iBiasesPow r) h,
    fun r _ ↦ congrArg (·.jBiasesPow r) h⟩

/-- On objects equal up to their costs the routine writes the same arrays, and it changes them
only in their buffers. -/
theorem lambdarankOneQuery_eraseCosts {o₁ o₂ : LambdarankNDCG K}
    (h : o₁.eraseCosts = o₂.eraseCosts) (tid : ℕ) (Q : Query K) (lam hess : ℕ → K) :
    (lambdarankOneQuery L kMinScore o₁ tid Q lam hess).state.eraseCosts =
        (lambdarankOneQuery L kMinScore o₂ tid Q lam hess).state.eraseCosts ∧
      (lambdarankOneQuery L kMinScore o₁ tid Q lam hess).gradients =
        (lambdarankOneQuery L kMinScore o₂ tid Q lam hess).gradients ∧
      (lambdarankOneQuery L kMinScore o₁ tid Q lam hess).hessians =
        (lambdarankOneQuery L kMinScore o₂ tid Q lam hess).hessians := by
  have hc := lambdarankOneQuery_congr L kMinScore (alikeFor_of_eraseCosts h Q.queryId Q.cnt)
    (show Q.Alike Q from ⟨rfl, rfl, fun _ _ ↦ rfl, fun _ _ ↦ rfl⟩) tid tid lam hess lam hess
  have hF := lambdarankOneQuery_frames (K := K) L kMinScore
  refine ⟨?_, funext fun d ↦ ?_, funext fun d ↦ ?_⟩
  · simpa only [lambdarankOneQuery, getGradientsForOneQuery_state,
      LambdarankNDCG.eraseCosts_withBuffers] using h
  all_goals
    by_cases hd : d < Q.cnt
    · first | exact (hc d hd).1 | exact (hc d hd).2
    · have h₁ := hF o₁ tid Q lam hess d (not_lt.mp hd)
      have h₂ := hF o₂ tid Q lam hess d (not_lt.mp hd)
      first | exact h₁.1.trans h₂.1.symm | exact h₁.2.trans h₂.2.symm

/-- Two objects equal up to their costs write the same arrays in a call. -/
theorem LambdarankNDCG.getGradients_eq_of_eraseCosts {o₁ o₂ : LambdarankNDCG K}
    (h : o₁.eraseCosts = o₂.eraseCosts) (score : ℕ → K) (schedule : List (ℕ × ℕ))
    (gradients hessians : ℕ → K) :
    (o₁.getGradients L kMinScore score schedule gradients hessians).gradients =
        (o₂.getGradients L kMinScore score schedule gradients hessians).gradients ∧
      (o₁.getGradients L kMinScore score schedule gradients hessians).hessians =
        (o₂.getGradients L kMinScore score schedule gradients hessians).hessians := by
  have hb : o₁.toRankingObjective = o₂.toRankingObjective := congrArg (·.toRankingObjective) h
  obtain ⟨-, hg, hh⟩ := o₁.toRankingObjective.getGradients_simulate score
    (fun s₁ s₂ ↦ s₁.eraseCosts = s₂.eraseCosts)
    (fun _ _ tid Q lam hess hs ↦ lambdarankOneQuery_eraseCosts L kMinScore hs tid Q lam hess)
    schedule gradients hessians o₁ o₂ h
  simp only [LambdarankNDCG.getGradients_gradients, LambdarankNDCG.getGradients_hessians, ← hb]
  exact ⟨hg, hh⟩

variable {L}

omit [FloorRing K] in
/-- With `eta_ = 0` the bias update keeps bias powers that are `1` below `truncation_level_`: it
changes the object only in its costs and buffers. -/
theorem eraseCosts_updatePositionBiasesAndGradients (hL : ∀ x, L.pow x 0 = 1)
    {o : LambdarankNDCG K} (he : o.eta = 0)
    (hb : ∀ r < o.truncationLevel, o.iBiasesPow r = 1 ∧ o.jBiasesPow r = 1) :
    (updatePositionBiasesAndGradients L o).eraseCosts = o.eraseCosts := by
  have hpow : ∀ c b : ℕ → K, (∀ r < o.truncationLevel, b r = 1) →
      updateBiasesPow L o.truncationLevel o.eta c b = b := fun c b hb ↦ funext fun r ↦ by
    rw [updateBiasesPow_apply, he, hL]
    split_ifs with hr
    exacts [(hb r hr).symm, rfl]
  simp only [updatePositionBiasesAndGradients, LambdarankNDCG.eraseCosts,
    hpow _ o.iBiasesPow fun r hr ↦ (hb r hr).1, hpow _ o.jBiasesPow fun r hr ↦ (hb r hr).2]

/-- With `eta_ = 0`, a call from an object whose bias powers below `truncation_level_` are `1`
changes it only in its costs and buffers. -/
theorem eraseCosts_getGradients (hL : ∀ x, L.pow x 0 = 1) {o : LambdarankNDCG K} (he : o.eta = 0)
    (hb : ∀ r < o.truncationLevel, o.iBiasesPow r = 1 ∧ o.jBiasesPow r = 1) (score : ℕ → K)
    (schedule : List (ℕ × ℕ)) (gradients hessians : ℕ → K) :
    (o.getGradients L kMinScore score schedule gradients hessians).state.eraseCosts =
      o.eraseCosts := by
  rw [getGradients_state]
  dsimp only
  split_ifs
  · rw [eraseCosts_updatePositionBiasesAndGradients hL ?_ ?_, LambdarankNDCG.eraseCosts_withBuffers]
    exacts [he, hb]
  · exact LambdarankNDCG.eraseCosts_withBuffers _ _ _

/-- With `eta_ = 0`, every state that calls reach from `o₀`, whose bias powers below
`truncation_level_` are `1`, is `o₀` up to its costs. -/
theorem eraseCosts_of_afterCalls (hL : ∀ x, L.pow x 0 = 1) {o₀ : LambdarankNDCG K}
    (he : o₀.eta = 0) (hb : ∀ r < o₀.truncationLevel, o₀.iBiasesPow r = 1 ∧ o₀.jBiasesPow r = 1)
    {teamSize k : ℕ} {o : LambdarankNDCG K}
    (h : AfterCalls (· = o₀) (·.numQueries) (LambdarankNDCG.getGradients L kMinScore) teamSize k o) :
    o.eraseCosts = o₀.eraseCosts := by
  induction h with
  | built h => rw [h]
  | @call _ o score schedule gradients hessians _ _ ih =>
    rw [eraseCosts_getGradients kMinScore hL ?_ ?_, ih]
    · exact (congrArg (·.eta) ih).trans he
    · intro r hr
      have hT : o.truncationLevel = o₀.truncationLevel := congrArg (·.truncationLevel) ih
      have hi : o.iBiasesPow r = o₀.iBiasesPow r := congrArg (·.iBiasesPow r) ih
      have hj : o.jBiasesPow r = o₀.jBiasesPow r := congrArg (·.jBiasesPow r) ih
      rw [hi, hj]
      exact hb r (hT ▸ hr)

/-- A constructed object holds the configured `eta_` and bias powers `1` below
`truncation_level_`. -/
theorem create_eta_biasesPow {config : Config K} {team : Option ℕ} {metadata : Metadata K}
    {numData : ℕ} {o : LambdarankNDCG K}
    (h : LambdarankNDCG.create L config team metadata numData = .ok o) :
    o.eta = config.lambdarankEta ∧
      ∀ r < o.truncationLevel, o.iBiasesPow r = 1 ∧ o.jBiasesPow r = 1 := by
  obtain ⟨base, rfl⟩ := create_eq_ok h
  exact ⟨rfl, fun r hr ↦ ⟨if_pos hr, if_pos hr⟩⟩

variable (L)

/-- With `lambdarank_eta = 0` and a `pow` that gives `1` at exponent `0`, every state that calls
reach from a constructed object is that object up to its costs, and every further call writes what
the same call on the constructed object writes.  The schedules range over teams of any size, as the model's buffers have a row for every thread;
the code has `num_threads_` rows, and with `lambdarank_unbiased` on a thread from `num_threads_` on
writes past them, so for the code the statement speaks of teams of at most `num_threads_`
threads, or of `lambdarank_unbiased` off. -/
theorem getGradients_eta_zero (hL : ∀ x, L.pow x 0 = 1) {config : Config K}
    (he : config.lambdarankEta = 0) {team : Option ℕ} {metadata : Metadata K} {numData : ℕ}
    {o₀ : LambdarankNDCG K} (hc : LambdarankNDCG.create L config team metadata numData = .ok o₀)
    {teamSize k : ℕ} {o : LambdarankNDCG K}
    (h : AfterCalls (· = o₀) (·.numQueries) (LambdarankNDCG.getGradients L kMinScore) teamSize k o)
    (score : ℕ → K) (schedule : List (ℕ × ℕ)) (gradients hessians : ℕ → K) :
    o.eraseCosts = o₀.eraseCosts ∧
      (o.getGradients L kMinScore score schedule gradients hessians).gradients =
        (o₀.getGradients L kMinScore score schedule gradients hessians).gradients ∧
      (o.getGradients L kMinScore score schedule gradients hessians).hessians =
        (o₀.getGradients L kMinScore score schedule gradients hessians).hessians := by
  obtain ⟨he₀, hb₀⟩ := create_eta_biasesPow hc
  have ho := eraseCosts_of_afterCalls kMinScore hL (he₀.trans he) hb₀ h
  exact ⟨ho, LambdarankNDCG.getGradients_eq_of_eraseCosts L kMinScore ho score schedule
    gradients hessians⟩

end Eta

theorem getGradients_eta_zero_run :
    let c : Config ℝ := ⟨0, 1, false, 3, true, 0, [0, 1, 3]⟩
    let m : Metadata ℝ := ⟨fun d ↦ [1, 2, 0].getD d 0, none, some (3 * ·), 1⟩
    let o₀ := initPositionBiasesAndGradients (LambdarankNDCG.ofBase Libm.real c none
      ⟨0, 1, 3, m.label, none, (3 * ·)⟩)
    let score : ℕ → ℝ := fun d ↦ [100, 50, 0].getD d 0
    let o₁ := (o₀.getGradients Libm.real (-1) score [(0, 0)] (fun _ ↦ 0) (fun _ ↦ 0)).state
    (∀ x, Libm.real.pow x 0 = 1) ∧ c.lambdarankEta = 0 ∧
      LambdarankNDCG.create Libm.real c none m 3 = .ok o₀ ∧
      AfterCalls (· = o₀) (·.numQueries) (LambdarankNDCG.getGradients Libm.real (-1)) 1 1 o₁ ∧
      o₁.eraseCosts = o₀.eraseCosts ∧
      (o₁.getGradients Libm.real (-1) score [(0, 0)] (fun _ ↦ 0) (fun _ ↦ 0)).gradients =
        (o₀.getGradients Libm.real (-1) score [(0, 0)] (fun _ ↦ 0) (fun _ ↦ 0)).gradients ∧
      (o₁.getGradients Libm.real (-1) score [(0, 0)] (fun _ ↦ 0) (fun _ ↦ 0)).hessians =
        (o₀.getGradients Libm.real (-1) score [(0, 0)] (fun _ ↦ 0) (fun _ ↦ 0)).hessians := by
  intro c m o₀ score o₁
  have hL : ∀ x, Libm.real.pow x 0 = 1 := Real.rpow_zero
  have hc : LambdarankNDCG.create Libm.real c none m 3 = .ok o₀ :=
    create_eq_ok_of one_pos rfl (by simp [checkLabel, List.range_succ])
  have h : AfterCalls (· = o₀) (·.numQueries) (LambdarankNDCG.getGradients Libm.real (-1)) 1 1 o₁ :=
    .call score [(0, 0)] _ _ (.built rfl) ⟨List.Perm.refl _, by decide⟩
  exact ⟨hL, rfl, hc, h, getGradients_eta_zero Libm.real (-1) hL rfl hc h score [(0, 0)] _ _⟩

section Truncation

/-- The ideal DCG at a depth at or past the query's size is that of the whole ideal ranking. -/
theorem calMaxDCGAtK_of_le (labelGain : List K) {k cnt : ℕ} (h : cnt ≤ k) (label : ℕ → K) :
    calMaxDCGAtK L labelGain k cnt label = calMaxDCGAtK L labelGain cnt cnt label := by
  unfold calMaxDCGAtK
  dsimp only
  rw [List.take_of_length_le, List.take_of_length_le] <;> simp [h]

/-- `Init` caches one inverse ideal DCG for all truncation levels at or past the query's size. -/
theorem inverseMaxDcg_of_le (labelGain : List K) {T cnt : ℕ} (h : cnt ≤ T) (label : ℕ → K) :
    inverseMaxDcg L labelGain T cnt label = inverseMaxDcg L labelGain cnt cnt label := by
  simp only [inverseMaxDcg, calMaxDCGAtK_of_le L labelGain h label]

/-- Once `truncation_level_ ≥ cnt - 1` the outer loop runs over every rank but the last, whatever
the level. -/
theorem pairLoopFrom_truncationLevel (o : LambdarankNDCG K) (Q : Query K) {T : ℕ}
    (hT : Q.cnt ≤ T + 1) (ho : Q.cnt ≤ o.truncationLevel + 1) (tid : ℕ)
    (lambdas hessians : ℕ → K) :
    pairLoopFrom L kMinScore { o with truncationLevel := T } Q tid lambdas hessians =
      pairLoopFrom L kMinScore o Q tid lambdas hessians := by
  have hmin : min (Q.cnt - 1) T = min (Q.cnt - 1) o.truncationLevel := by omega
  simp only [pairLoopFrom, pairLoop, hmin]
  rfl

/-- Two truncation levels at or past a query's size give the same cached inverse ideal DCG, and
the routine writes the same arrays and leaves the same object, its level apart. -/
theorem getGradientsForOneQuery_truncationLevel_past_cnt :
    (∀ (labelGain : List K) (T₁ T₂ cnt : ℕ) (label : ℕ → K), cnt ≤ T₁ → cnt ≤ T₂ →
      inverseMaxDcg L labelGain T₁ cnt label = inverseMaxDcg L labelGain T₂ cnt label) ∧
    ∀ (o : LambdarankNDCG K) (Q : Query K) (T tid : ℕ) (lambdas hessians : ℕ → K),
      Q.cnt ≤ o.truncationLevel → Q.cnt ≤ T →
        getGradientsForOneQuery L kMinScore { o with truncationLevel := T } Q tid lambdas hessians =
          { getGradientsForOneQuery L kMinScore o Q tid lambdas hessians with
            state := { (getGradientsForOneQuery L kMinScore o Q tid lambdas hessians).state with
              truncationLevel := T } } := by
  refine ⟨fun labelGain T₁ T₂ cnt label h₁ h₂ ↦ ?_, fun o Q T tid lambdas hessians ho hT ↦ ?_⟩
  · rw [inverseMaxDcg_of_le L labelGain h₁, inverseMaxDcg_of_le L labelGain h₂]
  · have hp := pairLoopFrom_truncationLevel L kMinScore o Q (T := T) (by omega) (by omega) tid
      lambdas hessians
    simp only [getGradientsForOneQuery, hp]
    rfl

end Truncation

/-- The query of two documents with labels and scores `1` and `0`, for steepness `1`, gains
`[0, 1]`, inverse max DCG `1` and bias powers `1`, at truncation levels `2` and `5`: the cached
inverse is `1` at both, and the first document's lambda is negative at both. -/
theorem getGradientsForOneQuery_truncationLevel_past_cnt_pair :
    let o : LambdarankNDCG ℝ := { (default : LambdarankNDCG ℝ) with
      sigmoid := 1
      truncationLevel := 2
      labelGain := [0, 1]
      sigmoidTable := constructSigmoidTable Libm.real 1
      inverseMaxDcgs := fun _ ↦ 1
      iBiasesPow := fun _ ↦ 1
      jBiasesPow := fun _ ↦ 1 }
    let Q : Query ℝ := ⟨0, 2, fun d ↦ [1, 0].getD d 0, fun d ↦ [1, 0].getD d 0⟩
    let r := getGradientsForOneQuery Libm.real (-1) o Q 0 (fun _ ↦ 0) (fun _ ↦ 0)
    (2 ≤ 2 ∧ 2 ≤ 5 ∧
      inverseMaxDcg Libm.real [0, 1] 2 2 Q.label = inverseMaxDcg Libm.real [0, 1] 5 2 Q.label) ∧
      inverseMaxDcg Libm.real [0, 1] 2 2 Q.label = 1 ∧
      Q.cnt ≤ o.truncationLevel ∧ Q.cnt ≤ 5 ∧
      getGradientsForOneQuery Libm.real (-1) { o with truncationLevel := 5 } Q 0 (fun _ ↦ 0)
        (fun _ ↦ 0) = { r with state := { r.state with truncationLevel := 5 } } ∧
      r.gradients 0 < 0 := by
  intro o Q r
  have h := getGradientsForOneQuery_truncationLevel_past_cnt Libm.real (-1 : ℝ)
  exact ⟨⟨le_rfl, by norm_num, h.1 _ _ _ _ _ le_rfl (by norm_num)⟩, inverseMaxDcg_two_documents,
    le_rfl, by norm_num, h.2 o Q 5 0 _ _ le_rfl (by norm_num),
    (getGradientsForOneQuery_two_documents (o := o) two_pos one_pos rfl rfl one_pos one_pos one_pos
      0 _ _).2.1⟩

end RankObjective
