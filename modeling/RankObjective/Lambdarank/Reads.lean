import RankObjective.Lambdarank.Bias

/-!
# What `LambdarankNDCG::GetGradientsForOneQuery` reads

The routine reads of the object only its parameters, the sigmoid table, the inverse max DCG of its
query and the bias powers of the ranks it pairs (what it reads of the query is the ranked view of
`Lambdarank.Ranked`).  Without `unbiased_` it changes nothing of the object, so over a training run
the object stays as construction left it.
-/

namespace RankObjective

variable {K : Type} [LinearOrderedField K]

/-- Two objects that `GetGradientsForOneQuery` cannot tell apart on query `q` when it pairs ranks
below `n`: the same parameters and sigmoid table, the same inverse max DCG of `q`, and the same
bias powers on the ranks below `n`. -/
structure LambdarankNDCG.AlikeFor (o₁ o₂ : LambdarankNDCG K) (q n : ℕ) : Prop where
  sigmoid : o₁.sigmoid = o₂.sigmoid
  norm : o₁.norm = o₂.norm
  truncationLevel : o₁.truncationLevel = o₂.truncationLevel
  unbiased : o₁.unbiased = o₂.unbiased
  labelGain : o₁.labelGain = o₂.labelGain
  sigmoidTable : o₁.sigmoidTable = o₂.sigmoidTable
  inverseMaxDcg : o₁.inverseMaxDcgs q = o₂.inverseMaxDcgs q
  iBiasesPow : ∀ r < n, o₁.iBiasesPow r = o₂.iBiasesPow r
  jBiasesPow : ∀ r < n, o₁.jBiasesPow r = o₂.jBiasesPow r

variable [FloorRing K]

section Runs

variable (L : Libm K) (kMinScore : K)

/-- Without `unbiased_` the routine changes nothing of the object. -/
theorem lambdarankOneQuery_state_of_not_unbiased {o : LambdarankNDCG K} (hu : o.unbiased = false)
    (tid : ℕ) (Q : Query K) (lambdas hessians : ℕ → K) :
    (lambdarankOneQuery L kMinScore o tid Q lambdas hessians).state = o := by
  show (getGradientsForOneQuery L kMinScore o Q tid lambdas hessians).state = o
  rw [getGradientsForOneQuery_state]
  simp only [queryICost_of_not_unbiased L kMinScore hu, queryJCost_of_not_unbiased L kMinScore hu,
    add_zero, Function.update_eq_self]
  rfl

/-- Without `unbiased_` a call changes nothing of the object. -/
theorem LambdarankNDCG.getGradients_state_of_not_unbiased {o : LambdarankNDCG K}
    (hu : o.unbiased = false) (score : ℕ → K) (schedule : List (ℕ × ℕ))
    (gradients hessians : ℕ → K) :
    (o.getGradients L kMinScore score schedule gradients hessians).state = o := by
  have h := o.toRankingObjective.getGradients_state_inv score (fun s : LambdarankNDCG K ↦ s = o)
    (fun s tid Q lam hess (h : s = o) ↦ by
      subst h; exact lambdarankOneQuery_state_of_not_unbiased L kMinScore hu tid Q lam hess)
    schedule ⟨gradients, hessians, o⟩ rfl
  simp only [LambdarankNDCG.getGradients, hu]
  exact h

theorem create_unbiased {config : Config K} {team : Option ℕ} {metadata : Metadata K}
    {numData : ℕ} {o : LambdarankNDCG K}
    (h : LambdarankNDCG.create L config team metadata numData = .ok o) :
    o.unbiased = config.lambdarankUnbiased := by
  obtain ⟨base, rfl⟩ := create_eq_ok h
  rfl

/-- Without `unbiased_` every state of a run is an object as construction built it. -/
theorem LambdarankNDCG.run_created {config : Config K} (hu : config.lambdarankUnbiased = false)
    {teamSize k : ℕ} {o : LambdarankNDCG K} (h : LambdarankNDCG.Run L kMinScore config teamSize k o) :
    ∃ team metadata numData, LambdarankNDCG.create L config team metadata numData = .ok o := by
  induction h with
  | built h => exact h
  | @call _ o score schedule gradients hessians _ _ ih =>
    obtain ⟨team, metadata, numData, hc⟩ := ih
    rw [LambdarankNDCG.getGradients_state_of_not_unbiased L kMinScore
      ((create_unbiased L hc).trans hu)]
    exact ⟨team, metadata, numData, hc⟩

/-- Two objects built with one configuration, in which query `q` has the same size and labels,
are alike for `q` on the ranks below its size when it has at most `truncation_level_`
documents. -/
theorem alikeFor_of_create {config : Config K} {team₁ team₂ : Option ℕ} {m₁ m₂ : Metadata K}
    {n₁ n₂ : ℕ} {o₁ o₂ : LambdarankNDCG K}
    (h₁ : LambdarankNDCG.create L config team₁ m₁ n₁ = .ok o₁)
    (h₂ : LambdarankNDCG.create L config team₂ m₂ n₂ = .ok o₂) {q : ℕ}
    (hcnt : o₁.cnt q = o₂.cnt q)
    (hlabel : ∀ d < o₁.cnt q, o₁.label (o₁.start q + d) = o₂.label (o₂.start q + d))
    (hT : o₁.cnt q ≤ config.lambdarankTruncationLevel) : o₁.AlikeFor o₂ q (o₁.cnt q) := by
  obtain ⟨base₁, rfl⟩ := create_eq_ok h₁
  obtain ⟨base₂, rfl⟩ := create_eq_ok h₂
  refine ⟨rfl, rfl, rfl, rfl, rfl, rfl, ?_, fun r hr ↦ ?_, fun r hr ↦ ?_⟩
  · show inverseMaxDcg L (defaultLabelGain config.labelGain) config.lambdarankTruncationLevel
        (base₁.cnt q) (shiftBy base₁.label (base₁.start q)) =
      inverseMaxDcg L (defaultLabelGain config.labelGain) config.lambdarankTruncationLevel
        (base₂.cnt q) (shiftBy base₂.label (base₂.start q))
    rw [← show base₁.cnt q = base₂.cnt q from hcnt]
    exact inverseMaxDcg_congr L _ _ _ hlabel
  all_goals simp [initPositionBiasesAndGradients, LambdarankNDCG.ofBase,
    show r < config.lambdarankTruncationLevel by omega]

end Runs

end RankObjective
