import RankObjective.Ranking

/-!
# `RankXENDCG`

The listwise objective.  `Init` seeds one generator `rands_[q] = Random(seed_ + q)` per query, and
`GetGradientsForOneQuery` advances the generator of its query by one draw per document.  It turns
the scores into the softmax `rho`, draws the target parameters `Phi(label, g)`, and builds the
lambdas in three passes: the first-order terms, then twice `rho[i] * (sum - params[i])` over the
terms of the pass before divided by `1 - rho`.  Each pass's terms sum to zero over the query.
-/

namespace RankObjective

variable {K G : Type} [LinearOrderedField K] [FloorRing K]

/-- The interface of `Random` (`utils/random.h`, outside the source) that the objective uses, its
state `G` left abstract: the constructor from a seed, and `NextFloat`, which returns a draw and the
advanced state. -/
structure Random (K G : Type) where
  ofSeed : ℤ → G
  nextFloat : G → K × G

/-- The members of `RankXENDCG`: `rands_`, the generators of the queries. -/
structure RankXENDCG (K G : Type) extends RankingObjective K where
  rands : ℕ → G

/-- `RankXENDCG::Init`: the base `Init`, then `rands_[i] = Random(seed_ + i)`; cells from
`num_queries_` on lie outside the vector. -/
def RankXENDCG.init (R : Random K G) (seed : ℤ) (metadata : Metadata K) (numData : ℕ) :
    Except (Fatal K) (RankXENDCG K G) := do
  let base ← RankingObjective.init seed metadata numData
  pure { base with rands := fun i ↦ R.ofSeed (seed + i) }

/-- Modelled from the spec: `Common::Softmax`, "a softmax probability distribution `rho` over
current scores", on the first `cnt` scores. -/
def softmax (L : Libm K) (score : ℕ → K) (cnt i : ℕ) : K :=
  L.exp (score i) / ∑ j in Finset.range cnt, L.exp (score j)

/-- Modelled from the spec: `kEpsilon`, the "small epsilon" that floors the sum of the
parameters; its definition lies outside the source. -/
def kEpsilon : K := 1 / 10 ^ 15

/-- `RankXENDCG::Phi`, with `Common::Pow(2, n)` (outside the source) the exact integer power. -/
def phi (l g : K) : K := (2 : K) ^ truncInt l - g

/-- The state of a generator after `n` draws. -/
def Random.advance (R : Random K G) (g : G) (n : ℕ) : G := (fun g ↦ (R.nextFloat g).2)^[n] g

/-- Draw `i` of a generator started in state `g`. -/
def Random.drawAt (R : Random K G) (g : G) (i : ℕ) : K := (R.nextFloat (R.advance g i)).1

/-- The loop of lines 566-569 from generator state `g`: `params[i] = Phi(label[i], NextFloat())`,
their running sum `inv_denominator`, and the generator state it leaves. -/
def drawParams (R : Random K G) (label : ℕ → K) (cnt : ℕ) (g : G) : (ℕ → K) × K × G :=
  (List.range cnt).foldl (fun acc i ↦
    let draw := R.nextFloat acc.2.2
    (Function.update acc.1 i (phi (label i) draw.1), acc.2.1 + phi (label i) draw.1, draw.2))
    (fun _ ↦ 0, 0, g)

/-- The first-order pass (lines 574-581). -/
def firstOrderPass (rho : ℕ → K) (invDenominator : K) (cnt : ℕ) (lambdas params : ℕ → K) :
    (ℕ → K) × (ℕ → K) × K :=
  (List.range cnt).foldl (fun acc i ↦
    let term := -acc.2.1 i * invDenominator + rho i
    (Function.update acc.1 i term, Function.update acc.2.1 i (term / (1 - rho i)),
      acc.2.2 + term / (1 - rho i))) (lambdas, params, 0)

/-- The second-order pass (lines 583-590). -/
def secondOrderPass (rho : ℕ → K) (sumL1 : K) (cnt : ℕ) (lambdas params : ℕ → K) :
    (ℕ → K) × (ℕ → K) × K :=
  (List.range cnt).foldl (fun acc i ↦
    let term := rho i * (sumL1 - acc.2.1 i)
    (Function.update acc.1 i (acc.1 i + term), Function.update acc.2.1 i (term / (1 - rho i)),
      acc.2.2 + term / (1 - rho i))) (lambdas, params, 0)

/-- The third-order pass (lines 591-594), which also writes the hessians. -/
def thirdOrderPass (rho : ℕ → K) (sumL2 : K) (cnt : ℕ) (params lambdas hessians : ℕ → K) :
    (ℕ → K) × (ℕ → K) :=
  (List.range cnt).foldl (fun acc i ↦
    (Function.update acc.1 i (acc.1 i + rho i * (sumL2 - params i)),
     Function.update acc.2 i (rho i * (1 - rho i)))) (lambdas, hessians)

/-- `RankXENDCG::GetGradientsForOneQuery`. -/
def RankXENDCG.getGradientsForOneQuery (L : Libm K) (R : Random K G) (o : RankXENDCG K G)
    (Q : Query K) (lambdas hessians : ℕ → K) : GradientBuffers K (RankXENDCG K G) :=
  if Q.cnt ≤ 1 then
    ⟨fun i ↦ if i < Q.cnt then 0 else lambdas i, fun i ↦ if i < Q.cnt then 0 else hessians i, o⟩
  else
    let rho := softmax L Q.score Q.cnt
    let drawn := drawParams R Q.label Q.cnt (o.rands Q.queryId)
    let invDenominator := 1 / max kEpsilon drawn.2.1
    let first := firstOrderPass rho invDenominator Q.cnt lambdas drawn.1
    let second := secondOrderPass rho first.2.2 Q.cnt first.1 first.2.1
    let third := thirdOrderPass rho second.2.2 Q.cnt second.2.1 second.1 hessians
    ⟨third.1, third.2, { o with rands := Function.update o.rands Q.queryId drawn.2.2 }⟩

/-- `GetGradientsForOneQuery` as the virtual method `RankingObjective::GetGradients` calls. -/
def xendcgOneQuery (L : Libm K) (R : Random K G) : OneQuery K (RankXENDCG K G) :=
  fun o _ Q lambdas hessians ↦ o.getGradientsForOneQuery L R Q lambdas hessians

/-- `GetGradients`, which `RankXENDCG` inherits from `RankingObjective`. -/
def RankXENDCG.getGradients (L : Libm K) (R : Random K G) (o : RankXENDCG K G) (score : ℕ → K)
    (schedule : List (ℕ × ℕ)) (gradients hessians : ℕ → K) : GradientBuffers K (RankXENDCG K G) :=
  o.toRankingObjective.getGradients (xendcgOneQuery L R) score schedule ⟨gradients, hessians, o⟩

/-- A training run of a `RankXENDCG` initialised with `seed`: its states after `k` calls. -/
def RankXENDCG.Run (L : Libm K) (R : Random K G) (seed : ℤ) (teamSize : ℕ) :
    ℕ → RankXENDCG K G → Prop :=
  AfterCalls (fun o ↦ ∃ metadata numData, RankXENDCG.init R seed metadata numData = .ok o)
    (fun o ↦ o.numQueries) (RankXENDCG.getGradients L R) teamSize

/-- The number of `NextFloat` draws that one call takes from the generator of a query of `cnt`
documents: none for a skipped query. -/
def drawsPerCall (cnt : ℕ) : ℕ := if cnt ≤ 1 then 0 else cnt

section Passes

omit [FloorRing K]

omit [LinearOrderedField K] in
theorem ite_lt_succ {α : Type} (a b : ℕ → α) (j n : ℕ) :
    (if j = n then a n else if j < n then a j else b j) = if j < n + 1 then a j else b j := by
  by_cases hjn : j = n
  · simp [hjn]
  · exact (if_neg hjn).trans (if_congr (by omega) rfl rfl)

/-- A pass over `[0, n)` whose step at `i` sets `lambdas[i]` and `params[i]` from their values at
`i` and adds the new `params[i]` to a running sum. -/
theorem foldl_pass_apply (F P : ℕ → K → K → K) (n : ℕ) (lambdas params : ℕ → K) :
    let r := (List.range n).foldl (fun acc i ↦
      (Function.update acc.1 i (F i (acc.1 i) (acc.2.1 i)),
        Function.update acc.2.1 i (P i (acc.1 i) (acc.2.1 i)), acc.2.2 + P i (acc.1 i) (acc.2.1 i)))
      (lambdas, params, (0 : K))
    (∀ j, r.1 j = if j < n then F j (lambdas j) (params j) else lambdas j) ∧
      (∀ j, r.2.1 j = if j < n then P j (lambdas j) (params j) else params j) ∧
      r.2.2 = ∑ i in Finset.range n, P i (lambdas i) (params i) := by
  induction n with
  | zero => simp
  | succ n ih =>
    obtain ⟨h₁, h₂, h₃⟩ := ih
    simp only [List.range_succ, List.foldl_append, List.foldl_cons, List.foldl_nil,
      Finset.sum_range_succ]
    rw [h₁ n, h₂ n, if_neg (lt_irrefl n), if_neg (lt_irrefl n), h₃]
    refine ⟨fun j ↦ ?_, fun j ↦ ?_, rfl⟩
    · rw [Function.update_apply, h₁ j]
      exact ite_lt_succ (fun j ↦ F j (lambdas j) (params j)) lambdas j n
    · rw [Function.update_apply, h₂ j]
      exact ite_lt_succ (fun j ↦ P j (lambdas j) (params j)) params j n

omit [LinearOrderedField K] in
/-- A pass over `[0, n)` whose step at `i` sets `lambdas[i]` from its value and `hessians[i]`. -/
theorem foldl_pass₂_apply (F H : ℕ → K → K) (n : ℕ) (lambdas hessians : ℕ → K) :
    let r := (List.range n).foldl (fun acc i ↦
      (Function.update acc.1 i (F i (acc.1 i)), Function.update acc.2 i (H i (acc.2 i))))
      (lambdas, hessians)
    (∀ j, r.1 j = if j < n then F j (lambdas j) else lambdas j) ∧
      ∀ j, r.2 j = if j < n then H j (hessians j) else hessians j := by
  induction n with
  | zero => simp
  | succ n ih =>
    obtain ⟨h₁, h₂⟩ := ih
    simp only [List.range_succ, List.foldl_append, List.foldl_cons, List.foldl_nil]
    rw [h₁ n, h₂ n, if_neg (lt_irrefl n), if_neg (lt_irrefl n)]
    refine ⟨fun j ↦ ?_, fun j ↦ ?_⟩
    · rw [Function.update_apply, h₁ j]
      exact ite_lt_succ (fun j ↦ F j (lambdas j)) lambdas j n
    · rw [Function.update_apply, h₂ j]
      exact ite_lt_succ (fun j ↦ H j (hessians j)) hessians j n

end Passes

section ClosedForms

omit [FloorRing K]

/-- `term` of the first pass at document `i`: `-params[i] * inv_denominator + rho[i]`. -/
def firstOrderTerm (rho params : ℕ → K) (invDenominator : K) (i : ℕ) : K :=
  -params i * invDenominator + rho i

/-- `sum_l1` and `sum_l2`: the terms of a pass divided by `1 - rho`, summed over the query. -/
def sumOver (rho term : ℕ → K) (cnt : ℕ) : K := ∑ i in Finset.range cnt, term i / (1 - rho i)

/-- `term` of the second and third passes at `i`, from the terms of the pass before. -/
def nextOrderTerm (rho term : ℕ → K) (cnt i : ℕ) : K :=
  rho i * (sumOver rho term cnt - term i / (1 - rho i))

theorem firstOrderPass_apply (rho : ℕ → K) (invDenominator : K) (cnt : ℕ) (lambdas params : ℕ → K) :
    let r := firstOrderPass rho invDenominator cnt lambdas params
    (∀ j, r.1 j = if j < cnt then firstOrderTerm rho params invDenominator j else lambdas j) ∧
      (∀ j, r.2.1 j = if j < cnt then firstOrderTerm rho params invDenominator j / (1 - rho j)
        else params j) ∧
      r.2.2 = sumOver rho (firstOrderTerm rho params invDenominator) cnt :=
  foldl_pass_apply (fun i _ p ↦ -p * invDenominator + rho i)
    (fun i _ p ↦ (-p * invDenominator + rho i) / (1 - rho i)) cnt lambdas params

theorem secondOrderPass_apply (rho : ℕ → K) (sumL1 : K) (cnt : ℕ) (lambdas params : ℕ → K) :
    let r := secondOrderPass rho sumL1 cnt lambdas params
    (∀ j, r.1 j = if j < cnt then lambdas j + rho j * (sumL1 - params j) else lambdas j) ∧
      (∀ j, r.2.1 j = if j < cnt then rho j * (sumL1 - params j) / (1 - rho j) else params j) ∧
      r.2.2 = ∑ i in Finset.range cnt, rho i * (sumL1 - params i) / (1 - rho i) :=
  foldl_pass_apply (fun i l p ↦ l + rho i * (sumL1 - p))
    (fun i _ p ↦ rho i * (sumL1 - p) / (1 - rho i)) cnt lambdas params

theorem thirdOrderPass_apply (rho : ℕ → K) (sumL2 : K) (cnt : ℕ) (params lambdas hessians : ℕ → K) :
    let r := thirdOrderPass rho sumL2 cnt params lambdas hessians
    (∀ j, r.1 j = if j < cnt then lambdas j + rho j * (sumL2 - params j) else lambdas j) ∧
      ∀ j, r.2 j = if j < cnt then rho j * (1 - rho j) else hessians j :=
  foldl_pass₂_apply (fun i l ↦ l + rho i * (sumL2 - params i)) (fun i _ ↦ rho i * (1 - rho i))
    cnt lambdas hessians

/-- The terms of a pass matter only on the query. -/
theorem nextOrderTerm_congr {rho rho' t t' : ℕ → K} {cnt : ℕ} (hr : ∀ i < cnt, rho i = rho' i)
    (h : ∀ i < cnt, t i = t' i) :
    ∀ i < cnt, nextOrderTerm rho t cnt i = nextOrderTerm rho' t' cnt i := fun i hi ↦ by
  have hs : sumOver rho t cnt = sumOver rho' t' cnt :=
    Finset.sum_congr rfl fun j hj ↦ by rw [h j (Finset.mem_range.mp hj), hr j (Finset.mem_range.mp hj)]
  rw [nextOrderTerm, nextOrderTerm, hs, h i hi, hr i hi]

end ClosedForms

theorem drawParams_apply (R : Random K G) (label : ℕ → K) (n : ℕ) (g : G) :
    (∀ j, (drawParams R label n g).1 j = if j < n then phi (label j) (R.drawAt g j) else 0) ∧
      (drawParams R label n g).2.1 = ∑ i in Finset.range n, phi (label i) (R.drawAt g i) ∧
      (drawParams R label n g).2.2 = R.advance g n := by
  induction n with
  | zero => simp [drawParams, Random.advance]
  | succ n ih =>
    obtain ⟨h₁, h₂, h₃⟩ := ih
    simp only [drawParams, List.range_succ, List.foldl_append, List.foldl_cons,
      List.foldl_nil] at h₁ h₂ h₃ ⊢
    rw [h₂, h₃, Finset.sum_range_succ]
    refine ⟨fun j ↦ ?_, rfl, (Function.iterate_succ_apply' (fun g ↦ (R.nextFloat g).2) n g).symm⟩
    rw [Function.update_apply, h₁ j]
    exact ite_lt_succ (fun j ↦ phi (label j) (R.drawAt g j)) (fun _ ↦ 0) j n

omit [FloorRing K] in
/-- The three passes together: on the query the lambdas become the sum of the three orders of
terms and the hessians `rho[i] * (1 - rho[i])`. -/
theorem orderPasses_apply (rho params : ℕ → K) (invDenominator : K) (cnt : ℕ)
    (lambdas hessians : ℕ → K) :
    let first := firstOrderTerm rho params invDenominator
    let second := nextOrderTerm rho first cnt
    let p₁ := firstOrderPass rho invDenominator cnt lambdas params
    let p₂ := secondOrderPass rho p₁.2.2 cnt p₁.1 p₁.2.1
    let p₃ := thirdOrderPass rho p₂.2.2 cnt p₂.2.1 p₂.1 hessians
    (∀ j, p₃.1 j = if j < cnt then first j + second j + nextOrderTerm rho second cnt j
      else lambdas j) ∧
      ∀ j, p₃.2 j = if j < cnt then rho j * (1 - rho j) else hessians j := by
  intro first second p₁ p₂ p₃
  obtain ⟨f₁, f₂, f₃⟩ : (∀ j, p₁.1 j = if j < cnt then first j else lambdas j) ∧
      (∀ j, p₁.2.1 j = if j < cnt then first j / (1 - rho j) else params j) ∧
      p₁.2.2 = sumOver rho first cnt :=
    firstOrderPass_apply rho invDenominator cnt lambdas params
  have hsecond : ∀ j < cnt, rho j * (p₁.2.2 - p₁.2.1 j) = second j := fun j hj ↦ by
    rw [f₃, f₂, if_pos hj]; rfl
  obtain ⟨s₁, s₂, s₃⟩ : (∀ j, p₂.1 j = if j < cnt then p₁.1 j + rho j * (p₁.2.2 - p₁.2.1 j)
        else p₁.1 j) ∧
      (∀ j, p₂.2.1 j = if j < cnt then rho j * (p₁.2.2 - p₁.2.1 j) / (1 - rho j) else p₁.2.1 j) ∧
      p₂.2.2 = ∑ i in Finset.range cnt, rho i * (p₁.2.2 - p₁.2.1 i) / (1 - rho i) :=
    secondOrderPass_apply rho p₁.2.2 cnt p₁.1 p₁.2.1
  have hsum₂ : p₂.2.2 = sumOver rho second cnt := s₃.trans
    (Finset.sum_congr rfl fun i hi ↦ by rw [hsecond i (Finset.mem_range.mp hi)])
  obtain ⟨t₁, t₂⟩ := thirdOrderPass_apply rho p₂.2.2 cnt p₂.2.1 p₂.1 hessians
  refine ⟨fun j ↦ ?_, t₂⟩
  rw [t₁, s₁, s₂, f₁]
  split_ifs with hj
  · rw [hsecond j hj, hsum₂, nextOrderTerm]
  · rfl

/-- With at least two documents the routine writes the sum of the three passes' terms as lambdas
and `rho[i] * (1 - rho[i])` as hessians on the query, keeps the arrays past it, and leaves the
query's generator `cnt` draws on. -/
theorem RankXENDCG.getGradientsForOneQuery_apply (L : Libm K) (R : Random K G)
    (o : RankXENDCG K G) (Q : Query K) (lambdas hessians : ℕ → K) (hcnt : 2 ≤ Q.cnt) :
    let rho := softmax L Q.score Q.cnt
    let drawn := drawParams R Q.label Q.cnt (o.rands Q.queryId)
    let first := firstOrderTerm rho drawn.1 (1 / max kEpsilon drawn.2.1)
    let second := nextOrderTerm rho first Q.cnt
    let r := o.getGradientsForOneQuery L R Q lambdas hessians
    (∀ j, r.gradients j = if j < Q.cnt then first j + second j + nextOrderTerm rho second Q.cnt j
      else lambdas j) ∧
      (∀ j, r.hessians j = if j < Q.cnt then rho j * (1 - rho j) else hessians j) ∧
      r.state = { o with
        rands := Function.update o.rands Q.queryId (R.advance (o.rands Q.queryId) Q.cnt) } := by
  obtain ⟨h₁, h₂⟩ := orderPasses_apply (softmax L Q.score Q.cnt)
    (drawParams R Q.label Q.cnt (o.rands Q.queryId)).1
    (1 / max kEpsilon (drawParams R Q.label Q.cnt (o.rands Q.queryId)).2.1) Q.cnt lambdas hessians
  have hr : o.getGradientsForOneQuery L R Q lambdas hessians = _ := if_neg (by omega)
  refine ⟨fun j ↦ by rw [hr]; exact h₁ j, fun j ↦ by rw [hr]; exact h₂ j, ?_⟩
  rw [hr]
  exact congrArg (fun g ↦ ({ o with rands := Function.update o.rands Q.queryId g } : RankXENDCG K G))
    (drawParams_apply R Q.label Q.cnt (o.rands Q.queryId)).2.2

/-- On a query of two documents or more the hessian of each document is `rho[i] * (1 - rho[i])`. -/
theorem RankXENDCG.getGradientsForOneQuery_hessians (L : Libm K) (R : Random K G)
    (o : RankXENDCG K G) (Q : Query K) (lambdas hessians : ℕ → K) (hcnt : 2 ≤ Q.cnt) {i : ℕ}
    (hi : i < Q.cnt) :
    (o.getGradientsForOneQuery L R Q lambdas hessians).hessians i =
      softmax L Q.score Q.cnt i * (1 - softmax L Q.score Q.cnt i) := by
  rw [(o.getGradientsForOneQuery_apply L R Q lambdas hessians hcnt).2.1 i, if_pos hi]

theorem xendcgOneQuery_frames (L : Libm K) (R : Random K G) : Frames (xendcgOneQuery L R) :=
  fun o _ Q lambdas hessians d hd ↦ by
    by_cases h : Q.cnt ≤ 1
    · simp [xendcgOneQuery, RankXENDCG.getGradientsForOneQuery, h, not_lt.mpr hd]
    · obtain ⟨hg, hh, -⟩ := o.getGradientsForOneQuery_apply L R Q lambdas hessians (by omega)
      exact ⟨(hg d).trans (if_neg (not_lt.mpr hd)), (hh d).trans (if_neg (not_lt.mpr hd))⟩

theorem xendcgOneQuery_overwrites (L : Libm K) (R : Random K G) :
    Overwrites (xendcgOneQuery L R) :=
  fun o _ Q lam hess lam' hess' ↦ by
    by_cases h : Q.cnt ≤ 1
    · simp +contextual [xendcgOneQuery, RankXENDCG.getGradientsForOneQuery, h]
    · obtain ⟨g, hh, hs⟩ := o.getGradientsForOneQuery_apply L R Q lam hess (by omega)
      obtain ⟨g', hh', hs'⟩ := o.getGradientsForOneQuery_apply L R Q lam' hess' (by omega)
      exact ⟨hs.trans hs'.symm, fun d hd ↦ ⟨by simp only [xendcgOneQuery, g, g', if_pos hd],
        by simp only [xendcgOneQuery, hh, hh', if_pos hd]⟩⟩

omit [LinearOrderedField K] [FloorRing K] in
theorem Random.advance_advance (R : Random K G) (g : G) (m n : ℕ) :
    R.advance (R.advance g m) n = R.advance g (m + n) := by
  rw [Random.advance, Random.advance, Random.advance, add_comm, Function.iterate_add_apply]

/-- The routine advances the generator of its own query by `drawsPerCall cnt` draws and changes
nothing else of the object. -/
theorem xendcgOneQuery_state (L : Libm K) (R : Random K G) (o : RankXENDCG K G) (tid : ℕ)
    (Q : Query K) (lambdas hessians : ℕ → K) :
    (xendcgOneQuery L R o tid Q lambdas hessians).state = { o with
      rands := Function.update o.rands Q.queryId
        (R.advance (o.rands Q.queryId) (drawsPerCall Q.cnt)) } := by
  by_cases h : Q.cnt ≤ 1
  · simp [xendcgOneQuery, RankXENDCG.getGradientsForOneQuery, drawsPerCall, h, Random.advance]
  · rw [drawsPerCall, if_neg h]
    exact (o.getGradientsForOneQuery_apply L R Q lambdas hessians (by omega)).2.2

/-- The routine leaves the generators of the other queries alone. -/
theorem xendcgOneQuery_rands_of_ne (L : Libm K) (R : Random K G) (o : RankXENDCG K G) (tid : ℕ)
    (Q : Query K) (lambdas hessians : ℕ → K) {j : ℕ} (hj : j ≠ Q.queryId) :
    (xendcgOneQuery L R o tid Q lambdas hessians).state.rands j = o.rands j := by
  rw [xendcgOneQuery_state]
  exact Function.update_noteq hj _ _

omit [FloorRing K] in
theorem softmax_congr (L : Libm K) {score₁ score₂ : ℕ → K} {cnt : ℕ}
    (h : ∀ d < cnt, score₁ d = score₂ d) : ∀ i < cnt, softmax L score₁ cnt i = softmax L score₂ cnt i :=
  fun i hi ↦ by
    rw [softmax, softmax, h i hi, Finset.sum_congr rfl fun j hj ↦ by rw [h j (Finset.mem_range.mp hj)]]

/-- The routine reads of the object only the generator of its query, and of the query only its
size, the labels of its documents and the softmax of their scores. -/
theorem xendcgOneQuery_congr_softmax (L : Libm K) (R : Random K G) {o₁ o₂ : RankXENDCG K G}
    {Q₁ Q₂ : Query K} (hc : Q₁.cnt = Q₂.cnt) (hl : ∀ d < Q₁.cnt, Q₁.label d = Q₂.label d)
    (hrho : ∀ i < Q₁.cnt, softmax L Q₁.score Q₁.cnt i = softmax L Q₂.score Q₁.cnt i)
    (hg : o₁.rands Q₁.queryId = o₂.rands Q₂.queryId)
    (tid₁ tid₂ : ℕ) (lam₁ hess₁ lam₂ hess₂ : ℕ → K) : ∀ d < Q₁.cnt,
    (xendcgOneQuery L R o₁ tid₁ Q₁ lam₁ hess₁).gradients d =
        (xendcgOneQuery L R o₂ tid₂ Q₂ lam₂ hess₂).gradients d ∧
      (xendcgOneQuery L R o₁ tid₁ Q₁ lam₁ hess₁).hessians d =
        (xendcgOneQuery L R o₂ tid₂ Q₂ lam₂ hess₂).hessians d := by
  obtain ⟨id₂, cnt₂, label₂, score₂⟩ := Q₂
  dsimp only at hc hl hrho hg ⊢
  subst hc
  intro d hd
  by_cases h : Q₁.cnt ≤ 1
  · simp [xendcgOneQuery, RankXENDCG.getGradientsForOneQuery, h, hd]
  obtain ⟨g₁, e₁, -⟩ := o₁.getGradientsForOneQuery_apply L R Q₁ lam₁ hess₁ (by omega)
  obtain ⟨g₂, e₂, -⟩ := o₂.getGradientsForOneQuery_apply L R ⟨id₂, Q₁.cnt, label₂, score₂⟩
    lam₂ hess₂ (by dsimp only; omega)
  obtain ⟨p₁, s₁, -⟩ := drawParams_apply R Q₁.label Q₁.cnt (o₁.rands Q₁.queryId)
  obtain ⟨p₂, s₂, -⟩ := drawParams_apply R label₂ Q₁.cnt (o₂.rands id₂)
  have hphi : ∀ i < Q₁.cnt, phi (Q₁.label i) (R.drawAt (o₁.rands Q₁.queryId) i) =
      phi (label₂ i) (R.drawAt (o₂.rands id₂) i) := fun i hi ↦ by rw [hl i hi, hg]
  have hfirst : ∀ i < Q₁.cnt,
      firstOrderTerm (softmax L Q₁.score Q₁.cnt) (drawParams R Q₁.label Q₁.cnt (o₁.rands Q₁.queryId)).1
        (1 / max kEpsilon (drawParams R Q₁.label Q₁.cnt (o₁.rands Q₁.queryId)).2.1) i =
      firstOrderTerm (softmax L score₂ Q₁.cnt) (drawParams R label₂ Q₁.cnt (o₂.rands id₂)).1
        (1 / max kEpsilon (drawParams R label₂ Q₁.cnt (o₂.rands id₂)).2.1) i := fun i hi ↦ by
    rw [firstOrderTerm, firstOrderTerm, p₁, p₂, if_pos hi, if_pos hi, hphi i hi, s₁, s₂,
      Finset.sum_congr rfl fun j hj ↦ hphi j (Finset.mem_range.mp hj), hrho i hi]
  have hsecond := nextOrderTerm_congr hrho hfirst
  have hthird := nextOrderTerm_congr hrho hsecond
  dsimp only at g₂ e₂
  simp only [xendcgOneQuery]
  rw [g₁, g₂, e₁, e₂]
  simp only [if_pos hd, hfirst d hd, hsecond d hd, hthird d hd, hrho d hd, and_self]

/-- The routine reads of the object only the generator of its query, and of the query only its
size and the labels and scores of its documents. -/
theorem xendcgOneQuery_congr (L : Libm K) (R : Random K G) {o₁ o₂ : RankXENDCG K G}
    {Q₁ Q₂ : Query K} (hQ : Q₁.Alike Q₂) (hg : o₁.rands Q₁.queryId = o₂.rands Q₂.queryId)
    (tid₁ tid₂ : ℕ) (lam₁ hess₁ lam₂ hess₂ : ℕ → K) : ∀ d < Q₁.cnt,
    (xendcgOneQuery L R o₁ tid₁ Q₁ lam₁ hess₁).gradients d =
        (xendcgOneQuery L R o₂ tid₂ Q₂ lam₂ hess₂).gradients d ∧
      (xendcgOneQuery L R o₁ tid₁ Q₁ lam₁ hess₁).hessians d =
        (xendcgOneQuery L R o₂ tid₂ Q₂ lam₂ hess₂).hessians d :=
  xendcgOneQuery_congr_softmax L R hQ.cnt hQ.label (softmax_congr L hQ.score) hg tid₁ tid₂
    lam₁ hess₁ lam₂ hess₂

section Runs

variable (L : Libm K) (R : Random K G)

omit [LinearOrderedField K] [FloorRing K] in
/-- `Init` seeds the generator of query `i` with `seed + i`. -/
theorem RankXENDCG.init_rands {R : Random K G} {seed : ℤ} {metadata : Metadata K} {numData : ℕ}
    {o : RankXENDCG K G} (h : RankXENDCG.init R seed metadata numData = .ok o) :
    o.rands = fun i : ℕ ↦ R.ofSeed (seed + i) := by
  cases hq : metadata.queryBoundaries <;>
    simp [RankXENDCG.init, RankingObjective.init, hq, bind, Except.bind, pure, Except.pure] at h
  exact h ▸ rfl

/-- A call leaves the layout of the queries as it was. -/
theorem RankXENDCG.getGradients_base (o : RankXENDCG K G) (score : ℕ → K)
    (schedule : List (ℕ × ℕ)) (gradients hessians : ℕ → K) :
    (o.getGradients L R score schedule gradients hessians).state.toRankingObjective =
      o.toRankingObjective :=
  o.toRankingObjective.getGradients_state_inv score
    (fun s : RankXENDCG K G ↦ s.toRankingObjective = o.toRankingObjective)
    (fun s tid Q lam hess h ↦ by rw [xendcgOneQuery_state]; exact h) schedule _ rfl

/-- A call whose loop runs each query once advances the generator of every query by
`drawsPerCall` of its size. -/
theorem RankXENDCG.getGradients_rands {o : RankXENDCG K G} {teamSize : ℕ}
    {schedule : List (ℕ × ℕ)} (hs : IsSchedule o.numQueries teamSize schedule)
    (score gradients hessians : ℕ → K) (q : ℕ) :
    (o.getGradients L R score schedule gradients hessians).state.rands q =
      if q < o.numQueries then R.advance (o.rands q) (drawsPerCall (o.cnt q)) else o.rands q := by
  have hV : ∀ (s : RankXENDCG K G) tid j lam hess j',
      (xendcgOneQuery L R s tid (o.query score j) lam hess).state.rands j' =
        if j' = j then R.advance (s.rands j) (drawsPerCall (o.cnt j)) else s.rands j' :=
    fun s tid j lam hess j' ↦ by simp only [xendcgOneQuery_state, Function.update_apply]; rfl
  refine (o.toRankingObjective.getGradients_view score (fun (s : RankXENDCG K G) j ↦ s.rands j)
    (fun j g ↦ R.advance g (drawsPerCall (o.cnt j))) hV schedule _ hs.nodup q).trans ?_
  simp only [hs.mem_iff]

/-- Over a run, the generator of query `q` has made `drawsPerCall` of its size draws per call
since `Init` seeded it with `seed + q`. -/
theorem RankXENDCG.run_rands {seed : ℤ} {teamSize k : ℕ} {o : RankXENDCG K G}
    (h : RankXENDCG.Run L R seed teamSize k o) :
    ∀ q < o.numQueries, o.rands q = R.advance (R.ofSeed (seed + q)) (k * drawsPerCall (o.cnt q)) := by
  induction h with
  | built h =>
    obtain ⟨metadata, numData, h⟩ := h
    intro q _
    rw [RankXENDCG.init_rands h, zero_mul]
    rfl
  | @call _ o score schedule gradients hessians _ hs ih =>
    intro q hq
    have hb := RankXENDCG.getGradients_base L R o score schedule gradients hessians
    rw [hb] at hq
    rw [hb, RankXENDCG.getGradients_rands L R hs, if_pos hq, ih q hq, Random.advance_advance,
      Nat.succ_mul]

end Runs

omit [FloorRing K] in
/-- The terms of the second and third passes sum to zero when those of the pass before do: as
`rho` sums to one, `sum_l * Σ rho` cancels `Σ rho[i] * params[i]` down to the sum of the terms. -/
theorem sum_nextOrderTerm {rho term : ℕ → K} {cnt : ℕ}
    (hrho : ∑ i in Finset.range cnt, rho i = 1) (hne : ∀ i < cnt, 1 - rho i ≠ 0)
    (hterm : ∑ i in Finset.range cnt, term i = 0) :
    ∑ i in Finset.range cnt, nextOrderTerm rho term cnt i = 0 := by
  have hq : ∀ i ∈ Finset.range cnt,
      term i / (1 - rho i) - rho i * (term i / (1 - rho i)) = term i := fun i hi ↦ by
    rw [← one_sub_mul, mul_div_cancel₀ _ (hne i (Finset.mem_range.mp hi))]
  calc ∑ i in Finset.range cnt, nextOrderTerm rho term cnt i
      = (∑ i in Finset.range cnt, rho i) * sumOver rho term cnt -
          ∑ i in Finset.range cnt, rho i * (term i / (1 - rho i)) := by
        simp only [nextOrderTerm, mul_sub, Finset.sum_sub_distrib, Finset.sum_mul]
    _ = ∑ i in Finset.range cnt, (term i / (1 - rho i) - rho i * (term i / (1 - rho i))) := by
        rw [hrho, one_mul, sumOver, Finset.sum_sub_distrib]
    _ = 0 := by rw [Finset.sum_congr rfl hq, hterm]

section Reals

theorem softmax_real_sum (score : ℕ → ℝ) {cnt : ℕ} (h : 0 < cnt) :
    ∑ i in Finset.range cnt, softmax Libm.real score cnt i = 1 := by
  have hpos : 0 < ∑ j in Finset.range cnt, Real.exp (score j) :=
    Finset.sum_pos (fun j _ ↦ Real.exp_pos _) (Finset.nonempty_range_iff.mpr h.ne')
  simp only [softmax, Libm.real_exp, ← Finset.sum_div, div_self hpos.ne']

/-- With two documents or more every softmax entry is below `1`. -/
theorem softmax_real_lt_one (score : ℕ → ℝ) {cnt : ℕ} (h : 2 ≤ cnt) {i : ℕ} (hi : i < cnt) :
    softmax Libm.real score cnt i < 1 := by
  obtain ⟨j, hj, hji⟩ : ∃ j < cnt, j ≠ i :=
    ⟨if i = 0 then 1 else 0, by split_ifs <;> omega, by split_ifs <;> omega⟩
  have hlt : Real.exp (score i) < ∑ k in Finset.range cnt, Real.exp (score k) :=
    Finset.single_lt_sum (f := fun k ↦ Real.exp (score k)) hji (Finset.mem_range.mpr hi)
      (Finset.mem_range.mpr hj) (Real.exp_pos (score j)) fun k _ _ ↦ (Real.exp_pos (score k)).le
  simp only [softmax, Libm.real_exp]
  exact (div_lt_one ((Real.exp_pos _).trans hlt)).mpr hlt

/-- On a query of two documents or more whose parameters sum to at least `kEpsilon`, the routine
never divides by zero, `1 - rho[i] > 0`, and its lambdas sum to zero: the terms of each of the
three passes do. -/
theorem getGradientsForOneQuery_xendcg_lambdas_sum_zero (R : Random ℝ G) (o : RankXENDCG ℝ G)
    (Q : Query ℝ) (lambdas hessians : ℕ → ℝ) (hcnt : 2 ≤ Q.cnt)
    (hsum : kEpsilon ≤ ∑ i in Finset.range Q.cnt, phi (Q.label i) (R.drawAt (o.rands Q.queryId) i)) :
    let rho := softmax Libm.real Q.score Q.cnt
    let first := firstOrderTerm rho (fun i ↦ phi (Q.label i) (R.drawAt (o.rands Q.queryId) i))
      (1 / ∑ i in Finset.range Q.cnt, phi (Q.label i) (R.drawAt (o.rands Q.queryId) i))
    let second := nextOrderTerm rho first Q.cnt
    let third := nextOrderTerm rho second Q.cnt
    (∀ i < Q.cnt, 0 < 1 - rho i) ∧ ∑ i in Finset.range Q.cnt, first i = 0 ∧
      ∑ i in Finset.range Q.cnt, second i = 0 ∧ ∑ i in Finset.range Q.cnt, third i = 0 ∧
      (∀ i < Q.cnt, (o.getGradientsForOneQuery Libm.real R Q lambdas hessians).gradients i =
        first i + second i + third i) ∧
      ∑ i in Finset.range Q.cnt, (o.getGradientsForOneQuery Libm.real R Q lambdas hessians).gradients i
        = 0 := by
  intro rho first second third
  have hS : 0 < ∑ i in Finset.range Q.cnt, phi (Q.label i) (R.drawAt (o.rands Q.queryId) i) :=
    lt_of_lt_of_le (by norm_num [kEpsilon]) hsum
  have hpos : ∀ i < Q.cnt, 0 < 1 - rho i := fun i hi ↦ sub_pos.mpr (softmax_real_lt_one _ hcnt hi)
  have hrho : ∑ i in Finset.range Q.cnt, rho i = 1 := softmax_real_sum Q.score (by omega)
  have h₁ : ∑ i in Finset.range Q.cnt, first i = 0 := by
    simp only [first, firstOrderTerm]
    rw [Finset.sum_add_distrib, hrho, ← Finset.sum_mul, Finset.sum_neg_distrib, neg_mul,
      mul_one_div_cancel hS.ne', neg_add_cancel]
  have h₂ := sum_nextOrderTerm hrho (fun i hi ↦ (hpos i hi).ne') h₁
  have h₃ := sum_nextOrderTerm hrho (fun i hi ↦ (hpos i hi).ne') h₂
  obtain ⟨hg, -, -⟩ := o.getGradientsForOneQuery_apply Libm.real R Q lambdas hessians hcnt
  obtain ⟨hd₁, hd₂, -⟩ := drawParams_apply R Q.label Q.cnt (o.rands Q.queryId)
  have hfirst : ∀ i < Q.cnt, firstOrderTerm rho (drawParams R Q.label Q.cnt (o.rands Q.queryId)).1
      (1 / max kEpsilon (drawParams R Q.label Q.cnt (o.rands Q.queryId)).2.1) i = first i :=
    fun i hi ↦ by rw [firstOrderTerm, hd₁, if_pos hi, hd₂, max_eq_right hsum]; rfl
  have hsecond : ∀ i < Q.cnt, nextOrderTerm rho _ Q.cnt i = second i :=
    nextOrderTerm_congr (fun _ _ ↦ rfl) hfirst
  have hthird : ∀ i < Q.cnt, nextOrderTerm rho _ Q.cnt i = third i :=
    nextOrderTerm_congr (fun _ _ ↦ rfl) hsecond
  have hgrad : ∀ i < Q.cnt, (o.getGradientsForOneQuery Libm.real R Q lambdas hessians).gradients i =
      first i + second i + third i := fun i hi ↦ by
    rw [hg i, if_pos hi, hfirst i hi, hsecond i hi, hthird i hi]
  refine ⟨hpos, h₁, h₂, h₃, hgrad, ?_⟩
  rw [Finset.sum_congr rfl fun i hi ↦ hgrad i (Finset.mem_range.mp hi), Finset.sum_add_distrib,
    Finset.sum_add_distrib, h₁, h₂, h₃, add_zero, add_zero]

theorem getGradientsForOneQuery_xendcg_lambdas_sum_zero_witness :
    let R : Random ℝ ℕ := ⟨fun _ ↦ 0, fun n ↦ (1 / 2, n + 1)⟩
    let o : RankXENDCG ℝ ℕ := ⟨default, fun _ ↦ 0⟩
    let Q : Query ℝ := ⟨0, 2, fun d ↦ [1, 0].getD d 0, fun d ↦ [1, 0].getD d 0⟩
    2 ≤ Q.cnt ∧
      kEpsilon ≤ ∑ i in Finset.range Q.cnt, phi (Q.label i) (R.drawAt (o.rands Q.queryId) i) ∧
      ∑ i in Finset.range Q.cnt,
        (o.getGradientsForOneQuery Libm.real R Q (fun _ ↦ 0) (fun _ ↦ 0)).gradients i = 0 := by
  intro R o Q
  have hsum : kEpsilon ≤ ∑ i in Finset.range Q.cnt, phi (Q.label i) (R.drawAt (o.rands Q.queryId) i) := by
    simp [Q, R, Random.drawAt, Finset.sum_range_succ, phi, truncInt, kEpsilon]
    norm_num
  exact ⟨le_rfl, hsum,
    (getGradientsForOneQuery_xendcg_lambdas_sum_zero R o Q _ _ le_rfl hsum).2.2.2.2.2⟩

/-- The bound `1 - rho[i] > 0` holds of the exact softmax, not of its rounding to doubles.  For the
scores `60` and `0` the exact `rho[0]` lies within `2^(-60)` of `1`, while the doubles next to `1`
are `1 - 2^(-53)` and `1 + 2^(-52)`: `1` is strictly the nearest double, so a correctly rounded
`Common::Softmax` returns `rho[0] = 1.0`, and lines 579 and 588 divide by `1 - rho[0] = 0`. -/
theorem softmax_rounds_to_one :
    let rho := softmax Libm.real (fun d ↦ [60, 0].getD d 0) 2
    0 < 1 - rho 0 ∧ 1 - rho 0 < 1 / 2 ^ 60 ∧
      ∀ x : ℝ, 1 / 2 ^ 53 ≤ |x - 1| → |rho 0 - 1| < |rho 0 - x| := by
  intro rho
  have hexp : (2 : ℝ) ^ 60 ≤ Real.exp 60 := by
    rw [show (60 : ℝ) = ((60 : ℕ) : ℝ) by norm_num, ← Real.exp_one_pow]
    exact pow_le_pow_left₀ zero_le_two (by linarith [Real.add_one_le_exp 1]) 60
  have hgap : 1 - rho 0 = 1 / (Real.exp 60 + 1) := by
    have : 0 < Real.exp 60 + 1 := by positivity
    simp only [rho, softmax, Libm.real_exp, Finset.sum_range_succ, Finset.sum_range_zero]
    norm_num
    field_simp
  have hpos : 0 < 1 - rho 0 := by rw [hgap]; positivity
  have hlt : 1 - rho 0 < 1 / 2 ^ 60 := by
    rw [hgap]
    exact one_div_lt_one_div_of_lt (by positivity) (by linarith)
  refine ⟨hpos, hlt, fun x hx ↦ ?_⟩
  have htri := abs_sub_le x (rho 0) 1
  rw [abs_sub_comm x (rho 0)] at htri
  rw [abs_sub_comm (rho 0) 1, abs_of_pos hpos] at htri ⊢
  have : (2 : ℝ) * (1 / 2 ^ 60) < 1 / 2 ^ 53 := by norm_num
  linarith

/-- `RankXENDCG::Init` checks no label, so it builds the objective for one query of two documents
labelled `-1`.  With both draws `9 / 10`, each `Phi(-1, 9 / 10) = 2^(-1) - 9 / 10` is `-2 / 5`: the
sum of line 568 is `-4 / 5`, below `kEpsilon`, so line 570 replaces it by `kEpsilon` and
`inv_denominator` is `10^15`; the first-order lambda of each document is then `2 / 5 * 10^15` plus
its softmax. -/
theorem getGradientsForOneQuery_xendcg_negative_labels :
    ∃ o : RankXENDCG ℝ ℕ,
      RankXENDCG.init ⟨fun _ ↦ 0, fun n ↦ (9 / 10, n + 1)⟩ 0
        ⟨fun d ↦ [-1, -1].getD d 0, none, some fun i ↦ [0, 2].getD i 0, 1⟩ 2 = .ok o ∧
      ∀ score : ℕ → ℝ,
        (drawParams ⟨fun _ ↦ 0, fun n ↦ (9 / 10, n + 1)⟩ (o.query score 0).label
          (o.query score 0).cnt (o.rands 0)).2.1 = -4 / 5 ∧ -4 / 5 < (kEpsilon : ℝ) ∧
        1 / max kEpsilon (-4 / 5 : ℝ) = 10 ^ 15 ∧
        ∀ (rho : ℕ → ℝ) (i : ℕ), i < (o.query score 0).cnt →
          firstOrderTerm rho (drawParams ⟨fun _ ↦ 0, fun n ↦ (9 / 10, n + 1)⟩
            (o.query score 0).label (o.query score 0).cnt (o.rands 0)).1
            (1 / max kEpsilon (-4 / 5)) i = 2 / 5 * 10 ^ 15 + rho i := by
  refine ⟨_, rfl, fun score ↦ ?_⟩
  have hε : (-4 / 5 : ℝ) < kEpsilon := by norm_num [kEpsilon]
  have hinv : 1 / max kEpsilon (-4 / 5 : ℝ) = 10 ^ 15 := by
    rw [max_eq_left hε.le, kEpsilon, one_div_one_div]
  obtain ⟨hp, hs, -⟩ := drawParams_apply (⟨fun _ ↦ 0, fun n ↦ (9 / 10, n + 1)⟩ : Random ℝ ℕ)
    (fun d ↦ ([-1, -1] : List ℝ).getD (0 + d) 0) 2 0
  have hphi : phi (-1 : ℝ) (9 / 10) = -2 / 5 := by norm_num [phi, truncInt, Int.ceil_neg]
  refine ⟨?_, hε, hinv, fun rho i hi ↦ ?_⟩
  · simp [RankingObjective.query, RankingObjective.cnt, RankingObjective.start, shiftBy,
      Finset.sum_range_succ, Random.drawAt] at hs ⊢
    rw [hs, hphi]
    norm_num
  · have hi' : i < 2 := hi
    show -(drawParams _ (fun d ↦ ([-1, -1] : List ℝ).getD (0 + d) 0) 2 0).1 i *
      (1 / max kEpsilon (-4 / 5)) + rho i = _
    rw [hp, if_pos hi', hinv]
    interval_cases i <;> simp [Random.drawAt, hphi] <;> ring

end Reals

end RankObjective
