import RankObjective.Sigmoid
import RankObjective.Dcg
import RankObjective.Ranking

/-!
# `LambdarankNDCG::GetGradientsForOneQuery`

The members of the pairwise objective and its per-query routine as the source computes them: the
stable score order of the query, the two nested loops over pairs of ranks with their skips, the
lambda, hessian and bias cost of a pair, and the final normalisation.  The sentinel score
`kMinScore` (`-inf` in LightGBM) is a parameter.
-/

namespace RankObjective

variable {K : Type} [LinearOrderedField K] [FloorRing K]

/-- The fields of `Config` the ranking objectives read. -/
structure Config (K : Type) where
  objectiveSeed : ℤ
  sigmoid : K
  lambdarankNorm : Bool
  lambdarankTruncationLevel : ℕ
  lambdarankUnbiased : Bool
  lambdarankEta : K
  labelGain : List K

/-- The members of `LambdarankNDCG`.  A vector is a function on `ℕ`: the code sizes the bias and
cost vectors to `truncationLevel` entries and the cost buffers to `numThreads` rows, and a cell
past a vector's size lies outside it. -/
structure LambdarankNDCG (K : Type) extends RankingObjective K where
  sigmoid : K
  norm : Bool
  truncationLevel : ℕ
  unbiased : Bool
  eta : K
  labelGain : List K
  numThreads : ℕ
  inverseMaxDcgs : ℕ → K
  sigmoidTable : SigmoidTable K
  iBiasesPow : ℕ → K
  jBiasesPow : ℕ → K
  iCosts : ℕ → K
  jCosts : ℕ → K
  iCostsBuffer : ℕ → ℕ → K
  jCostsBuffer : ℕ → ℕ → K
  deriving Inhabited

/-- What the pair loop updates: the query's `lambdas` and `hessians`, `sum_lambdas`, and row
`tid` of `i_costs_buffer_` and `j_costs_buffer_`. -/
structure PairLoop (K : Type) where
  lambdas : ℕ → K
  hessians : ℕ → K
  sumLambdas : K
  iCosts : ℕ → K
  jCosts : ℕ → K

section OneQuery

variable (L : Libm K) (kMinScore : K) (o : LambdarankNDCG K) (Q : Query K)

/-- `sorted_idx`: `0, …, cnt - 1` after `std::stable_sort` with `score[a] > score[b]`. -/
def sortedIdx : List ℕ := (List.range Q.cnt).mergeSort fun a b ↦ Q.score b ≤ Q.score a

/-- `sorted_idx[r]`, the document at rank `r`. -/
def docAt (r : ℕ) : ℕ := (sortedIdx Q).getD r 0

/-- `worst_idx`: the last rank, or the one above it when the last document holds `kMinScore`. -/
def worstIdx : ℤ :=
  if 0 < (Q.cnt : ℤ) - 1 ∧ Q.score (docAt Q (Q.cnt - 1)) = kMinScore then (Q.cnt : ℤ) - 2
  else (Q.cnt : ℤ) - 1

/-- `best_score`. -/
def bestScore : K := Q.score (docAt Q 0)

/-- `worst_score`. -/
def worstScore : K := Q.score (docAt Q (worstIdx kMinScore Q).toNat)

/-- The skips of the inner loop (lines 217 and 220) and the choice of `high_rank` and `low_rank`
(lines 222-229) for the ranks `i < j`; `none` when the pair is skipped. -/
def pairRanks (i j : ℕ) : Option (ℕ × ℕ) :=
  if Q.score (docAt Q j) = kMinScore then none
  else if Q.label (docAt Q i) = Q.label (docAt Q j) then none
  else if Q.label (docAt Q j) < Q.label (docAt Q i) then some (i, j)
  else some (j, i)

/-- `delta_score` of the pair at ranks `highRank` and `lowRank`. -/
def deltaScore (highRank lowRank : ℕ) : K :=
  Q.score (docAt Q highRank) - Q.score (docAt Q lowRank)

/-- `delta_pair_NDCG` (line 263), after the score-distance regularisation of line 267. -/
def deltaPairNDCG (highRank lowRank : ℕ) : K :=
  let dcgGap := labelGainAt o.labelGain (Q.label (docAt Q highRank)) -
    labelGainAt o.labelGain (Q.label (docAt Q lowRank))
  let pairedDiscount := |getDiscount L highRank - getDiscount L lowRank|
  let delta := dcgGap * pairedDiscount * o.inverseMaxDcgs Q.queryId
  if (o.norm = true ∨ o.unbiased = true) ∧ bestScore Q ≠ worstScore kMinScore Q then
    delta / (1 / 100 + |deltaScore Q highRank lowRank|)
  else delta

/-- `p_lambda` as read from the sigmoid table (line 274). -/
def pairSigmoid (highRank lowRank : ℕ) : K :=
  getSigmoid o.sigmoidTable (deltaScore Q highRank lowRank)

/-- `p_lambda` after the scaling of line 325. -/
def pairLambda (highRank lowRank : ℕ) : K :=
  pairSigmoid o Q highRank lowRank * (-o.sigmoid * deltaPairNDCG L kMinScore o Q highRank lowRank /
    o.iBiasesPow highRank / o.jBiasesPow lowRank)

/-- `p_hessian` after the scaling of line 356. -/
def pairHessian (highRank lowRank : ℕ) : K :=
  pairSigmoid o Q highRank lowRank * (1 - pairSigmoid o Q highRank lowRank) *
    (o.sigmoid * o.sigmoid * deltaPairNDCG L kMinScore o Q highRank lowRank /
      o.iBiasesPow highRank / o.jBiasesPow lowRank)

/-- `p_cost` (line 300). -/
def pairCost (highRank lowRank : ℕ) : K :=
  L.log (1 / (1 - pairSigmoid o Q highRank lowRank)) *
    deltaPairNDCG L kMinScore o Q highRank lowRank

/-- The body of the inner loop for a pair that is not skipped (lines 231-364). -/
def accumulatePair (acc : PairLoop K) (highRank lowRank : ℕ) : PairLoop K :=
  let high := docAt Q highRank
  let low := docAt Q lowRank
  let pLambda := pairLambda L kMinScore o Q highRank lowRank
  let pHessian := pairHessian L kMinScore o Q highRank lowRank
  let pCost := pairCost L kMinScore o Q highRank lowRank
  let lambdas := Function.update acc.lambdas low (acc.lambdas low - pLambda)
  let hessians := Function.update acc.hessians low (acc.hessians low + pHessian)
  { lambdas := Function.update lambdas high (lambdas high + pLambda)
    hessians := Function.update hessians high (hessians high + pHessian)
    sumLambdas := acc.sumLambdas - 2 * pLambda
    iCosts := if o.unbiased then
      Function.update acc.iCosts highRank (acc.iCosts highRank + pCost / o.jBiasesPow lowRank)
      else acc.iCosts
    jCosts := if o.unbiased then
      Function.update acc.jCosts lowRank (acc.jCosts lowRank + pCost / o.iBiasesPow highRank)
      else acc.jCosts }

/-- One iteration of the inner loop (lines 216-365). -/
def pairStep (acc : PairLoop K) (i j : ℕ) : PairLoop K :=
  match pairRanks kMinScore Q i j with
  | none => acc
  | some (highRank, lowRank) => accumulatePair L kMinScore o Q acc highRank lowRank

/-- The two nested loops over pairs of ranks (lines 212-366): `i` runs while `i < cnt - 1` and
`i < truncation_level_` and skips a document holding `kMinScore`; `j` runs over `(i, cnt)`. -/
def pairLoop (init : PairLoop K) : PairLoop K :=
  (List.range (min (Q.cnt - 1) o.truncationLevel)).foldl (fun acc i ↦
    if Q.score (docAt Q i) = kMinScore then acc
    else (List.range' (i + 1) (Q.cnt - (i + 1))).foldl
      (fun acc j ↦ pairStep L kMinScore o Q acc i j) acc) init

/-- The normalisation of lines 368-374. -/
def normalizeLambdas (acc : PairLoop K) : (ℕ → K) × (ℕ → K) :=
  if o.norm = true ∧ 0 < acc.sumLambdas then
    let normFactor := L.log2 (1 + acc.sumLambdas) / acc.sumLambdas
    (fun i ↦ if i < Q.cnt then acc.lambdas i * normFactor else acc.lambdas i,
     fun i ↦ if i < Q.cnt then acc.hessians i * normFactor else acc.hessians i)
  else (acc.lambdas, acc.hessians)

/-- The pair loop as `GetGradientsForOneQuery` starts it, from zeroed `lambdas` and `hessians`
(lines 177-180) and row `tid` of the cost buffers. -/
def pairLoopFrom (tid : ℕ) (lambdas hessians : ℕ → K) : PairLoop K :=
  pairLoop L kMinScore o Q
    { lambdas := fun i ↦ if i < Q.cnt then 0 else lambdas i
      hessians := fun i ↦ if i < Q.cnt then 0 else hessians i
      sumLambdas := 0
      iCosts := o.iCostsBuffer tid
      jCosts := o.jCostsBuffer tid }

/-- `LambdarankNDCG::GetGradientsForOneQuery`, run by thread `tid`. -/
def getGradientsForOneQuery (tid : ℕ) (lambdas hessians : ℕ → K) :
    GradientBuffers K (LambdarankNDCG K) :=
  let acc := pairLoopFrom L kMinScore o Q tid lambdas hessians
  { gradients := (normalizeLambdas L o Q acc).1
    hessians := (normalizeLambdas L o Q acc).2
    state := { o with
      iCostsBuffer := Function.update o.iCostsBuffer tid acc.iCosts
      jCostsBuffer := Function.update o.jCostsBuffer tid acc.jCosts } }

/-- `GetGradientsForOneQuery` as the virtual method `RankingObjective::GetGradients` calls. -/
def lambdarankOneQuery : OneQuery K (LambdarankNDCG K) :=
  fun o tid Q lambdas hessians ↦ getGradientsForOneQuery L kMinScore o Q tid lambdas hessians

end OneQuery

end RankObjective
