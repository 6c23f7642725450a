import RankObjective.Lambdarank.Reads
import RankObjective.Lambdarank.Hessians

/-!
# The ranked view of a query

`GetGradientsForOneQuery` reads a query through its ranking `sorted_idx`: the labels and the
sentinel marks of the documents rank by rank, and the differences of their scores.  Two queries
with the same ranked view get the same lambdas and hessians rank by rank and add the same costs.

The stable sort makes the ranking a function of the documents up to renaming: it orders tied
documents by index, so a permutation of the documents that keeps tied documents in order permutes
the output.
-/

namespace RankObjective

variable {K : Type} [LinearOrderedField K]

section Order

/-- `a` comes before `b` in the stable order by descending score: a higher score, or the same
score and an index no larger. -/
def RanksBefore (score : ℕ → K) (a b : ℕ) : Prop :=
  score b < score a ∨ (score a = score b ∧ a ≤ b)

instance (score : ℕ → K) : IsAntisymm ℕ (RanksBefore score) where
  antisymm a b hab hba := by
    rcases hab with h | ⟨h, h'⟩ <;> rcases hba with g | ⟨g, g'⟩
    · exact absurd (h.trans g) (lt_irrefl _)
    · exact absurd g (h.ne)
    · exact absurd h g.ne
    · omega

variable (Q : Query K)

theorem sortedIdx_perm : (sortedIdx Q).Perm (List.range Q.cnt) :=
  List.mergeSort_perm _ _

theorem mem_sortedIdx {d : ℕ} : d ∈ sortedIdx Q ↔ d < Q.cnt := by
  rw [(sortedIdx_perm Q).mem_iff, List.mem_range]

/-- Two ranks of the query hold the same document only if they are equal. -/
theorem docAt_inj {r r' : ℕ} (hr : r < Q.cnt) (hr' : r' < Q.cnt) :
    docAt Q r = docAt Q r' ↔ r = r' := by
  have hl := length_sortedIdx Q
  rw [docAt, docAt, List.getD_eq_getElem _ _ (by omega), List.getD_eq_getElem _ _ (by omega)]
  exact ((sortedIdx_perm Q).nodup_iff.mpr (List.nodup_range _)).getElem_inj_iff

private theorem descending_trans (s : ℕ → K) (a b c : ℕ) (hab : decide (s b ≤ s a) = true)
    (hbc : decide (s c ≤ s b) = true) : decide (s c ≤ s a) = true := by
  simp only [decide_eq_true_eq] at hab hbc ⊢
  exact hbc.trans hab

private theorem descending_total (s : ℕ → K) (a b : ℕ) :
    (decide (s b ≤ s a) || decide (s a ≤ s b)) = true := by
  simpa only [Bool.or_eq_true, decide_eq_true_eq] using le_total _ _

/-- The stable sort keeps each class of tied documents in index order. -/
theorem sortedIdx_filter_score (v : K) :
    (sortedIdx Q).filter (fun d ↦ Q.score d = v) =
      (List.range Q.cnt).filter (fun d ↦ Q.score d = v) := by
  have htie : ((List.range Q.cnt).filter (fun d ↦ Q.score d = v)).Pairwise
      (fun a b ↦ decide (Q.score b ≤ Q.score a)) :=
    List.Pairwise.imp_of_mem (fun ha hb _ ↦ by
      simp only [List.mem_filter, decide_eq_true_eq] at ha hb
      simp [ha.2, hb.2]) (List.pairwise_of_forall fun _ _ ↦ trivial)
  have hsub := List.sublist_mergeSort (descending_trans Q.score) (descending_total Q.score) htie
    (List.filter_sublist _)
  have hsub' : ((List.range Q.cnt).filter (fun d ↦ Q.score d = v)).Sublist
      ((sortedIdx Q).filter (fun d ↦ Q.score d = v)) := by
    simpa only [List.filter_filter, Bool.and_self] using hsub.filter (fun d ↦ decide (Q.score d = v))
  exact (hsub'.eq_of_length ((sortedIdx_perm Q).filter _).length_eq.symm).symm

/-- `sorted_idx` is the order by descending score with ties broken by index. -/
theorem sortedIdx_pairwise : (sortedIdx Q).Pairwise (RanksBefore Q.score) := by
  have hsorted : (sortedIdx Q).Pairwise fun a b ↦ decide (Q.score b ≤ Q.score a) :=
    List.sorted_mergeSort (descending_trans Q.score) (descending_total Q.score) _
  rw [List.pairwise_iff_forall_sublist]
  intro a b hab
  have hle := of_decide_eq_true (List.pairwise_iff_forall_sublist.mp hsorted hab)
  rcases hle.lt_or_eq with h | h
  · exact .inl h
  · refine .inr ⟨h.symm, ?_⟩
    have hsub : [a, b].Sublist ((List.range Q.cnt).filter (fun d ↦ Q.score d = Q.score a)) := by
      rw [← sortedIdx_filter_score]
      simpa [h] using hab.filter (fun d ↦ decide (Q.score d = Q.score a))
    exact (List.pairwise_iff_forall_sublist.mp ((List.pairwise_lt_range Q.cnt).filter _) hsub).le

/-- A ranking of the query's documents by descending score with ties broken by index is
`sorted_idx`. -/
theorem eq_sortedIdx {l : List ℕ} (hp : l.Perm (List.range Q.cnt))
    (hs : l.Pairwise (RanksBefore Q.score)) : l = sortedIdx Q :=
  List.eq_of_perm_of_sorted (hp.trans (sortedIdx_perm Q).symm) hs (sortedIdx_pairwise Q)

/-- Every document of a query sits at one of its ranks. -/
theorem exists_docAt_eq {d : ℕ} (hd : d < Q.cnt) : ∃ r < Q.cnt, docAt Q r = d := by
  obtain ⟨r, hr, h⟩ := List.getElem_of_mem ((mem_sortedIdx Q).mpr hd)
  have hl := length_sortedIdx Q
  exact ⟨r, by omega, by rw [docAt, List.getD_eq_getElem _ _ hr, h]⟩

/-- In a non-empty query `worst_idx` is one of its ranks. -/
theorem worstIdx_mem (kMinScore : K) (h : 0 < Q.cnt) :
    0 ≤ worstIdx kMinScore Q ∧ worstIdx kMinScore Q < Q.cnt := by
  unfold worstIdx
  split_ifs <;> omega

theorem worstIdx_toNat_lt (kMinScore : K) (h : 0 < Q.cnt) : (worstIdx kMinScore Q).toNat < Q.cnt := by
  have := worstIdx_mem Q kMinScore h
  omega

/-- The stable sort compares the scores of the query's own documents only. -/
theorem sortedIdx_congr {Q₁ Q₂ : Query K} (hQ : Q₁.Alike Q₂) : sortedIdx Q₁ = sortedIdx Q₂ := by
  have h := @List.map_mergeSort ℕ ℕ (fun a b ↦ Q₁.score b ≤ Q₁.score a)
    (fun a b ↦ Q₂.score b ≤ Q₂.score a) id (List.range Q₁.cnt) fun a ha b hb ↦ by
      simp only [id, hQ.score a (List.mem_range.mp ha), hQ.score b (List.mem_range.mp hb)]
  rw [List.map_id, List.map_id] at h
  rw [sortedIdx, sortedIdx, h, hQ.cnt]

theorem docAt_congr {Q₁ Q₂ : Query K} (hQ : Q₁.Alike Q₂) (r : ℕ) : docAt Q₁ r = docAt Q₂ r := by
  rw [docAt, docAt, sortedIdx_congr hQ]

end Order

section Positions

variable (kMinScore : K)

/-- The positions of `sorted_idx` and the documents the routine reads.  In a non-empty query they
are all in range: `sorted_idx` is a permutation of `0, …, cnt - 1`, so every rank below `cnt` names
a document of the query; `worst_idx` is a rank; and so are both ranks of every pair.  In the empty
query, which a non-decreasing `query_boundaries_` admits, `sorted_idx` is empty while line 196
reads its position `0` and line 204 its position `worst_idx = -1`. -/
theorem getGradientsForOneQuery_reads :
    (∀ Q : Query K, 0 < Q.cnt →
      (sortedIdx Q).Perm (List.range Q.cnt) ∧ (∀ r < Q.cnt, docAt Q r < Q.cnt) ∧
        (0 ≤ worstIdx kMinScore Q ∧ worstIdx kMinScore Q < Q.cnt) ∧
        ∀ T, ∀ p ∈ contributingPairs kMinScore Q T, p.1 < Q.cnt ∧ p.2 < Q.cnt) ∧
    (∀ Q : Query K, Q.cnt = 0 → (sortedIdx Q).length = 0 ∧ worstIdx kMinScore Q = -1) ∧
    (⟨0, 2, 2, fun _ ↦ 0, none, fun i ↦ [0, 0, 2].getD i 0⟩ : RankingObjective K).Partitions ∧
      (⟨0, 2, 2, fun _ ↦ 0, none, fun i ↦ [0, 0, 2].getD i 0⟩ : RankingObjective K).cnt 0 = 0 := by
  refine ⟨fun Q h ↦ ⟨sortedIdx_perm Q, fun r hr ↦ docAt_lt Q hr, worstIdx_mem Q kMinScore h,
    fun T p hp ↦ ⟨(contributingPairs_spec kMinScore Q hp).1, (contributingPairs_spec kMinScore Q hp).2.1⟩⟩,
    fun Q h ↦ ⟨by rw [length_sortedIdx, h], by simp [worstIdx, h]⟩,
    ⟨rfl, rfl, fun q hq ↦ by interval_cases q <;> simp⟩, rfl⟩

end Positions

/-- Two queries `GetGradientsForOneQuery` cannot tell apart through their rankings: the same id
and size, and rank by rank the same labels, the same sentinel marks and the same differences of
scores. -/
structure Query.RankedAlike (kMinScore : K) (Q₁ Q₂ : Query K) : Prop where
  queryId : Q₁.queryId = Q₂.queryId
  cnt : Q₁.cnt = Q₂.cnt
  label : ∀ r < Q₁.cnt, Q₁.label (docAt Q₁ r) = Q₂.label (docAt Q₂ r)
  sentinel : ∀ r < Q₁.cnt, Q₁.score (docAt Q₁ r) = kMinScore ↔ Q₂.score (docAt Q₂ r) = kMinScore
  gap : ∀ r < Q₁.cnt, ∀ r' < Q₁.cnt,
    Q₁.score (docAt Q₁ r) - Q₁.score (docAt Q₁ r') = Q₂.score (docAt Q₂ r) - Q₂.score (docAt Q₂ r')

omit [LinearOrderedField K] in
theorem LambdarankNDCG.AlikeFor.refl (o : LambdarankNDCG K) (q n : ℕ) : o.AlikeFor o q n :=
  ⟨rfl, rfl, rfl, rfl, rfl, rfl, rfl, fun _ _ ↦ rfl, fun _ _ ↦ rfl⟩

namespace Query.RankedAlike

variable {kMinScore : K} {Q₁ Q₂ : Query K}

theorem pairRanks_eq (hQ : Q₁.RankedAlike kMinScore Q₂) {i j : ℕ} (hi : i < Q₁.cnt)
    (hj : j < Q₁.cnt) : pairRanks kMinScore Q₁ i j = pairRanks kMinScore Q₂ i j := by
  simp only [pairRanks, hQ.label i hi, hQ.label j hj, hQ.sentinel j hj]

theorem contributingPairs_eq (hQ : Q₁.RankedAlike kMinScore Q₂) (T : ℕ) :
    contributingPairs kMinScore Q₁ T = contributingPairs kMinScore Q₂ T := by
  rw [contributingPairs, contributingPairs, ← hQ.cnt]
  refine List.flatMap_congr fun i hi ↦ ?_
  have hi : i < Q₁.cnt := by rw [List.mem_range] at hi; omega
  exact if_congr (hQ.sentinel i hi) rfl (List.filterMap_congr fun j hj ↦
    hQ.pairRanks_eq hi (by rw [List.mem_range'_1] at hj; omega))

theorem worstIdx_eq (hQ : Q₁.RankedAlike kMinScore Q₂) :
    worstIdx kMinScore Q₁ = worstIdx kMinScore Q₂ := by
  rw [worstIdx, worstIdx, ← hQ.cnt]
  exact if_congr (and_congr_right fun h ↦ hQ.sentinel _ (by omega)) rfl rfl

/-- The guard of line 266 compares the best and worst scores, which differ by a difference of
scores. -/
theorem bestScore_eq_iff (hQ : Q₁.RankedAlike kMinScore Q₂) (h : 0 < Q₁.cnt) :
    bestScore Q₁ = worstScore kMinScore Q₁ ↔ bestScore Q₂ = worstScore kMinScore Q₂ := by
  rw [bestScore, worstScore, bestScore, worstScore, ← hQ.worstIdx_eq, ← sub_eq_zero,
    hQ.gap 0 h _ (worstIdx_toNat_lt Q₁ kMinScore h), sub_eq_zero]

variable [FloorRing K] (L : Libm K) {o₁ o₂ : LambdarankNDCG K} {n : ℕ}

theorem deltaPairNDCG_eq (hQ : Q₁.RankedAlike kMinScore Q₂) (ho : o₁.AlikeFor o₂ Q₁.queryId n)
    {hr lr : ℕ} (hhr : hr < Q₁.cnt) (hlr : lr < Q₁.cnt) :
    deltaPairNDCG L kMinScore o₁ Q₁ hr lr = deltaPairNDCG L kMinScore o₂ Q₂ hr lr := by
  simp only [deltaPairNDCG, deltaScore, hQ.label hr hhr, hQ.label lr hlr, hQ.gap hr hhr lr hlr,
    ho.labelGain, ho.norm, ho.unbiased, ho.inverseMaxDcg, ne_eq, hQ.bestScore_eq_iff (by omega)]
  rw [hQ.queryId]

/-- Ranks of the query at which the two objects have the same bias powers. -/
theorem pair_eq (hQ : Q₁.RankedAlike kMinScore Q₂) (ho : o₁.AlikeFor o₂ Q₁.queryId n)
    {hr lr : ℕ} (hhr : hr < Q₁.cnt) (hlr : lr < Q₁.cnt) (hhn : hr < n) (hln : lr < n) :
    pairLambda L kMinScore o₁ Q₁ hr lr = pairLambda L kMinScore o₂ Q₂ hr lr ∧
      pairHessian L kMinScore o₁ Q₁ hr lr = pairHessian L kMinScore o₂ Q₂ hr lr ∧
      pairCost L kMinScore o₁ Q₁ hr lr = pairCost L kMinScore o₂ Q₂ hr lr := by
  have hs : pairSigmoid o₁ Q₁ hr lr = pairSigmoid o₂ Q₂ hr lr := by
    rw [pairSigmoid, pairSigmoid, deltaScore, deltaScore, hQ.gap hr hhr lr hlr, ho.sigmoidTable]
  simp only [pairLambda, pairHessian, pairCost, hs, hQ.deltaPairNDCG_eq L ho hhr hlr, ho.sigmoid,
    ho.iBiasesPow hr hhn, ho.jBiasesPow lr hln, and_self]

omit [FloorRing K] in
theorem pairsOf_eq (hQ : Q₁.RankedAlike kMinScore Q₂) (ho : o₁.AlikeFor o₂ Q₁.queryId n) :
    pairsOf kMinScore o₁ Q₁ = pairsOf kMinScore o₂ Q₂ := by
  simp only [pairsOf, hQ.contributingPairs_eq, ho.truncationLevel]

/-- Queries ranked alike get, rank by rank, the same lambdas and hessians. -/
theorem getGradientsForOneQuery_docAt (hQ : Q₁.RankedAlike kMinScore Q₂)
    (ho : o₁.AlikeFor o₂ Q₁.queryId Q₁.cnt) (tid₁ tid₂ : ℕ) (lam₁ hess₁ lam₂ hess₂ : ℕ → K)
    {r : ℕ} (hr : r < Q₁.cnt) :
    (getGradientsForOneQuery L kMinScore o₁ Q₁ tid₁ lam₁ hess₁).gradients (docAt Q₁ r) =
        (getGradientsForOneQuery L kMinScore o₂ Q₂ tid₂ lam₂ hess₂).gradients (docAt Q₂ r) ∧
      (getGradientsForOneQuery L kMinScore o₁ Q₁ tid₁ lam₁ hess₁).hessians (docAt Q₁ r) =
        (getGradientsForOneQuery L kMinScore o₂ Q₂ tid₂ lam₂ hess₂).hessians (docAt Q₂ r) := by
  have hr₂ : r < Q₂.cnt := hQ.cnt ▸ hr
  have hpairs := hQ.pairsOf_eq ho
  have hp : ∀ p ∈ pairsOf kMinScore o₁ Q₁,
      (docAt Q₁ r = docAt Q₁ p.1 ↔ docAt Q₂ r = docAt Q₂ p.1) ∧
      (docAt Q₁ r = docAt Q₁ p.2 ↔ docAt Q₂ r = docAt Q₂ p.2) ∧
      pairLambda L kMinScore o₁ Q₁ p.1 p.2 = pairLambda L kMinScore o₂ Q₂ p.1 p.2 ∧
      pairHessian L kMinScore o₁ Q₁ p.1 p.2 = pairHessian L kMinScore o₂ Q₂ p.1 p.2 := fun p hp ↦ by
    obtain ⟨h₁, h₂, -⟩ := contributingPairs_spec kMinScore Q₁ hp
    obtain ⟨e₁, e₂, -⟩ := hQ.pair_eq L ho h₁ h₂ h₁ h₂
    rw [docAt_inj Q₁ hr h₁, docAt_inj Q₁ hr h₂, docAt_inj Q₂ hr₂ (hQ.cnt ▸ h₁),
      docAt_inj Q₂ hr₂ (hQ.cnt ▸ h₂)]
    exact ⟨Iff.rfl, Iff.rfl, e₁, e₂⟩
  obtain ⟨l₁, h₁, s₁, -, -⟩ := pairLoopFrom_apply L kMinScore o₁ Q₁ tid₁ lam₁ hess₁ (docAt Q₁ r)
  obtain ⟨l₂, h₂, s₂, -, -⟩ := pairLoopFrom_apply L kMinScore o₂ Q₂ tid₂ lam₂ hess₂ (docAt Q₂ r)
  have hnorm : normFactor L o₁ (pairLoopFrom L kMinScore o₁ Q₁ tid₁ lam₁ hess₁) =
      normFactor L o₂ (pairLoopFrom L kMinScore o₂ Q₂ tid₂ lam₂ hess₂) := by
    rw [normFactor, normFactor, s₁, s₂, ← hpairs, ho.norm,
      List.map_congr_left fun p hp' ↦ by rw [(hp p hp').2.2.1]]
  obtain ⟨g₁, e₁, -⟩ := getGradientsForOneQuery_apply L kMinScore o₁ Q₁ tid₁ lam₁ hess₁ (docAt Q₁ r)
  obtain ⟨g₂, e₂, -⟩ := getGradientsForOneQuery_apply L kMinScore o₂ Q₂ tid₂ lam₂ hess₂ (docAt Q₂ r)
  simp only [g₁, g₂, e₁, e₂, l₁, l₂, h₁, h₂, if_pos (docAt_lt Q₁ hr), if_pos (docAt_lt Q₂ hr₂),
    hnorm, ← hpairs]
  exact ⟨congrArg (fun s ↦ (0 + s) * _) (congrArg List.sum (List.map_congr_left fun p hp' ↦ by
      simp only [(hp p hp').1, (hp p hp').2.1, (hp p hp').2.2.1])),
    congrArg (fun s ↦ (0 + s) * _) (congrArg List.sum (List.map_congr_left fun p hp' ↦ by
      simp only [(hp p hp').1, (hp p hp').2.1, (hp p hp').2.2.2]))⟩

/-- Queries ranked alike add the same costs to the buffers. -/
theorem getGradientsForOneQuery_state_eq (hQ : Q₁.RankedAlike kMinScore Q₂) (o : LambdarankNDCG K)
    (tid : ℕ) (lam₁ hess₁ lam₂ hess₂ : ℕ → K) :
    (getGradientsForOneQuery L kMinScore o Q₁ tid lam₁ hess₁).state =
      (getGradientsForOneQuery L kMinScore o Q₂ tid lam₂ hess₂).state := by
  have ho := LambdarankNDCG.AlikeFor.refl o Q₁.queryId Q₁.cnt
  have hcost : ∀ p ∈ pairsOf kMinScore o Q₁,
      pairCost L kMinScore o Q₁ p.1 p.2 = pairCost L kMinScore o Q₂ p.1 p.2 := fun p hp ↦ by
    obtain ⟨h₁, h₂, -⟩ := contributingPairs_spec kMinScore Q₁ hp
    exact (hQ.pair_eq L ho h₁ h₂ h₁ h₂).2.2
  have hi : queryICost L kMinScore o Q₁ = queryICost L kMinScore o Q₂ := funext fun r ↦ by
    rw [queryICost, queryICost, ← hQ.pairsOf_eq ho]
    exact congrArg List.sum (List.map_congr_left fun p hp ↦ by rw [hcost p hp])
  have hj : queryJCost L kMinScore o Q₁ = queryJCost L kMinScore o Q₂ := funext fun r ↦ by
    rw [queryJCost, queryJCost, ← hQ.pairsOf_eq ho]
    exact congrArg List.sum (List.map_congr_left fun p hp ↦ by rw [hcost p hp])
  rw [getGradientsForOneQuery_state, getGradientsForOneQuery_state, hi, hj]

end Query.RankedAlike

section Alike

variable {Q₁ Q₂ : Query K}

/-- Queries that agree on their own documents are ranked alike. -/
theorem Query.Alike.rankedAlike (kMinScore : K) (hQ : Q₁.Alike Q₂) : Q₁.RankedAlike kMinScore Q₂ where
  queryId := hQ.queryId
  cnt := hQ.cnt
  label r hr := by
    rw [← docAt_congr hQ]
    exact hQ.label _ (docAt_lt Q₁ hr)
  sentinel r hr := by rw [← docAt_congr hQ, hQ.score _ (docAt_lt Q₁ hr)]
  gap r hr r' hr' := by
    rw [← docAt_congr hQ, ← docAt_congr hQ, hQ.score _ (docAt_lt Q₁ hr), hQ.score _ (docAt_lt Q₁ hr')]

variable [FloorRing K] (L : Libm K) (kMinScore : K) {o₁ o₂ : LambdarankNDCG K}

/-- The routine's output on the query depends on the object only through what `AlikeFor` names
for the ranks of the query, and on the query only through its own documents. -/
theorem lambdarankOneQuery_congr (ho : o₁.AlikeFor o₂ Q₁.queryId Q₁.cnt) (hQ : Q₁.Alike Q₂)
    (tid₁ tid₂ : ℕ) (lam₁ hess₁ lam₂ hess₂ : ℕ → K) : ∀ d < Q₁.cnt,
    (lambdarankOneQuery L kMinScore o₁ tid₁ Q₁ lam₁ hess₁).gradients d =
        (lambdarankOneQuery L kMinScore o₂ tid₂ Q₂ lam₂ hess₂).gradients d ∧
      (lambdarankOneQuery L kMinScore o₁ tid₁ Q₁ lam₁ hess₁).hessians d =
        (lambdarankOneQuery L kMinScore o₂ tid₂ Q₂ lam₂ hess₂).hessians d := by
  intro d hd
  obtain ⟨r, hr, rfl⟩ := exists_docAt_eq Q₁ hd
  have h := (hQ.rankedAlike kMinScore).getGradientsForOneQuery_docAt L ho tid₁ tid₂ lam₁ hess₁ lam₂
    hess₂ hr
  rw [← docAt_congr hQ] at h
  exact h

end Alike

/-- The query with its documents renumbered by `π`: its document `d` is document `π d` of `Q`,
with labels `label ∘ π` and scores `score ∘ π`. -/
def Query.permute (Q : Query K) (π : ℕ → ℕ) : Query K :=
  { Q with label := Q.label ∘ π, score := Q.score ∘ π }

section Permutation

/-- A renumbering of the documents that keeps tied documents in order changes the ranking by the
renumbering only. -/
theorem sortedIdx_permute (Q : Query K) {π : ℕ → ℕ}
    (hπ : ((List.range Q.cnt).map π).Perm (List.range Q.cnt))
    (htie : ∀ a < Q.cnt, ∀ b < Q.cnt, a < b → Q.score (π a) = Q.score (π b) → π a < π b) :
    (sortedIdx (Q.permute π)).map π = sortedIdx Q := by
  refine eq_sortedIdx Q (((sortedIdx_perm (Q.permute π)).map π).trans hπ) (List.pairwise_map.mpr ?_)
  refine (sortedIdx_pairwise (Q.permute π)).imp_of_mem fun {a b} ha hb h ↦ ?_
  rw [mem_sortedIdx] at ha hb
  rcases h with h | ⟨h, hab⟩
  · exact .inl h
  · refine .inr ⟨h, ?_⟩
    rcases hab.lt_or_eq with hab | rfl
    · exact (htie a ha b hb hab h).le
    · exact le_rfl

variable [FloorRing K] (L : Libm K) (kMinScore : K)

/-- Two queries ranked alike whose rankings differ by a renumbering `φ` of the documents get the
renumbered lambdas and hessians. -/
theorem getGradientsForOneQuery_rename {Q₁ Q₂ : Query K} (hQ : Q₁.RankedAlike kMinScore Q₂)
    {φ : ℕ → ℕ} (hφ : ∀ r < Q₁.cnt, docAt Q₂ r = φ (docAt Q₁ r)) (o : LambdarankNDCG K) (tid : ℕ)
    (lam₁ hess₁ lam₂ hess₂ : ℕ → K) {d : ℕ} (hd : d < Q₁.cnt) :
    (getGradientsForOneQuery L kMinScore o Q₁ tid lam₁ hess₁).gradients d =
        (getGradientsForOneQuery L kMinScore o Q₂ tid lam₂ hess₂).gradients (φ d) ∧
      (getGradientsForOneQuery L kMinScore o Q₁ tid lam₁ hess₁).hessians d =
        (getGradientsForOneQuery L kMinScore o Q₂ tid lam₂ hess₂).hessians (φ d) := by
  obtain ⟨r, hr, rfl⟩ := exists_docAt_eq Q₁ hd
  rw [← hφ r hr]
  exact hQ.getGradientsForOneQuery_docAt L (LambdarankNDCG.AlikeFor.refl o _ _) tid tid lam₁ hess₁
    lam₂ hess₂ hr

/-- Renumbering the documents of a query by a permutation `π` of `[0, cnt)` that keeps tied
documents in order, or by any permutation when no two documents tie, renumbers the lambdas and
hessians the routine writes and leaves the costs it adds unchanged. -/
theorem getGradientsForOneQuery_permuted (o : LambdarankNDCG K) (Q : Query K) (π : ℕ → ℕ)
    (hπ : ((List.range Q.cnt).map π).Perm (List.range Q.cnt))
    (hties : (∀ a < Q.cnt, ∀ b < Q.cnt, a < b → Q.score (π a) = Q.score (π b) → π a < π b) ∨
      ∀ a < Q.cnt, ∀ b < Q.cnt, Q.score a = Q.score b → a = b)
    (tid : ℕ) (lam₁ hess₁ lam₂ hess₂ : ℕ → K) :
    (∀ d < Q.cnt,
      (getGradientsForOneQuery L kMinScore o (Q.permute π) tid lam₁ hess₁).gradients d =
          (getGradientsForOneQuery L kMinScore o Q tid lam₂ hess₂).gradients (π d) ∧
        (getGradientsForOneQuery L kMinScore o (Q.permute π) tid lam₁ hess₁).hessians d =
          (getGradientsForOneQuery L kMinScore o Q tid lam₂ hess₂).hessians (π d)) ∧
      (getGradientsForOneQuery L kMinScore o (Q.permute π) tid lam₁ hess₁).state =
        (getGradientsForOneQuery L kMinScore o Q tid lam₂ hess₂).state := by
  have hmem : ∀ a < Q.cnt, π a < Q.cnt := fun a ha ↦
    List.mem_range.mp (hπ.subset (List.mem_map_of_mem π (List.mem_range.mpr ha)))
  have htie : ∀ a < Q.cnt, ∀ b < Q.cnt, a < b → Q.score (π a) = Q.score (π b) → π a < π b := by
    refine hties.elim id fun h a ha b hb hab hs ↦ absurd ?_ hab.ne
    exact List.inj_on_of_nodup_map (hπ.nodup_iff.mpr (List.nodup_range _))
      (List.mem_range.mpr ha) (List.mem_range.mpr hb) (h _ (hmem a ha) _ (hmem b hb) hs)
  have hl := length_sortedIdx (Q.permute π)
  have hdoc : ∀ r < Q.cnt, docAt Q r = π (docAt (Q.permute π) r) := fun r hr ↦ by
    have hr' : r < (sortedIdx (Q.permute π)).length := hl ▸ hr
    rw [docAt, docAt, ← sortedIdx_permute Q hπ htie, List.getD_eq_getElem _ _ (by simpa using hr'),
      List.getElem_map, List.getD_eq_getElem _ _ hr']
  have hQ : (Q.permute π).RankedAlike kMinScore Q :=
    ⟨rfl, rfl, fun r hr ↦ by rw [hdoc r hr]; rfl, fun r hr ↦ by rw [hdoc r hr]; rfl,
      fun r hr r' hr' ↦ by rw [hdoc r hr, hdoc r' hr']; rfl⟩
  exact ⟨fun d hd ↦ getGradientsForOneQuery_rename L kMinScore hQ hdoc o tid lam₁ hess₁ lam₂ hess₂ hd,
    hQ.getGradientsForOneQuery_state_eq L o tid lam₁ hess₁ lam₂ hess₂⟩

/-- The two-document query with its documents swapped, on an object with truncation level `2`,
steepness `1` and its table, gains `[0, 1]`, inverse ideal DCG `1` and bias powers `1`: the first
document of the swapped query gets the lambda and hessian of the second document of the query,
the lambda positive, and the same costs. -/
theorem getGradientsForOneQuery_permuted_swap :
    let o : LambdarankNDCG ℝ := { (default : LambdarankNDCG ℝ) with
      sigmoid := 1
      truncationLevel := 2
      labelGain := [0, 1]
      sigmoidTable := constructSigmoidTable Libm.real 1
      inverseMaxDcgs := fun _ ↦ 1
      iBiasesPow := fun _ ↦ 1
      jBiasesPow := fun _ ↦ 1 }
    let Q : Query ℝ := ⟨0, 2, fun d ↦ [1, 0].getD d 0, fun d ↦ [1, 0].getD d 0⟩
    let r := getGradientsForOneQuery Libm.real (-1) o Q 0 (fun _ ↦ 0) (fun _ ↦ 0)
    let r' := getGradientsForOneQuery Libm.real (-1) o (Q.permute (1 - ·)) 0 (fun _ ↦ 0) (fun _ ↦ 0)
    r'.gradients 0 = r.gradients 1 ∧ r'.hessians 0 = r.hessians 1 ∧ r'.state = r.state ∧
      0 < r.gradients 1 := by
  intro o Q r r'
  have hπ : ((List.range Q.cnt).map (1 - ·)).Perm (List.range Q.cnt) :=
    show ((List.range 2).map (1 - ·)).Perm (List.range 2) by decide
  have hdistinct : ∀ a < Q.cnt, ∀ b < Q.cnt, Q.score a = Q.score b → a = b := fun a ha b hb h ↦ by
    have ha₂ : a < 2 := ha
    have hb₂ : b < 2 := hb
    interval_cases a <;> interval_cases b <;> norm_num [Q] at h ⊢
  obtain ⟨hd, hs⟩ := getGradientsForOneQuery_permuted Libm.real (-1) o Q (1 - ·) hπ (.inr hdistinct)
    0 _ _ _ _
  exact ⟨(hd 0 two_pos).1, (hd 0 two_pos).2, hs, (getGradientsForOneQuery_two_documents (o := o)
    two_pos one_pos rfl rfl one_pos one_pos one_pos 0 _ _).2.2.1⟩

end Permutation

/-- The query with every score moved by `c`. -/
def Query.shift (Q : Query K) (c : K) : Query K :=
  { Q with score := fun d ↦ Q.score d + c }

section Shift

/-- The stable sort compares scores only, so a common shift leaves the ranking as it was. -/
theorem sortedIdx_shift (Q : Query K) (c : K) : sortedIdx (Q.shift c) = sortedIdx Q := by
  simp only [sortedIdx, Query.shift, add_le_add_iff_right]

variable [FloorRing K] (L : Libm K) (kMinScore : K)

/-- Moving every score of a query by `c` changes neither the lambdas and hessians the routine
writes nor the costs it adds, when no score meets the sentinel before or after the move. -/
theorem getGradientsForOneQuery_shift (o : LambdarankNDCG K) (Q : Query K) (c : K)
    (hs : ∀ d < Q.cnt, Q.score d ≠ kMinScore ∧ Q.score d + c ≠ kMinScore)
    (tid : ℕ) (lam₁ hess₁ lam₂ hess₂ : ℕ → K) :
    (∀ d < Q.cnt,
      (getGradientsForOneQuery L kMinScore o (Q.shift c) tid lam₁ hess₁).gradients d =
          (getGradientsForOneQuery L kMinScore o Q tid lam₂ hess₂).gradients d ∧
        (getGradientsForOneQuery L kMinScore o (Q.shift c) tid lam₁ hess₁).hessians d =
          (getGradientsForOneQuery L kMinScore o Q tid lam₂ hess₂).hessians d) ∧
      (getGradientsForOneQuery L kMinScore o (Q.shift c) tid lam₁ hess₁).state =
        (getGradientsForOneQuery L kMinScore o Q tid lam₂ hess₂).state := by
  have hdoc : ∀ r, docAt (Q.shift c) r = docAt Q r := fun r ↦ by rw [docAt, docAt, sortedIdx_shift]
  have hQ : (Q.shift c).RankedAlike kMinScore Q :=
    ⟨rfl, rfl, fun r _ ↦ by rw [hdoc]; rfl,
      fun r hr ↦ by
        rw [hdoc]
        exact iff_of_false (hs _ (docAt_lt Q hr)).2 (hs _ (docAt_lt Q hr)).1,
      fun r _ r' _ ↦ by rw [hdoc, hdoc]; exact add_sub_add_right_eq_sub _ _ _⟩
  have hid : ∀ r < Q.cnt, docAt Q r = id (docAt (Q.shift c) r) := fun r _ ↦ (hdoc r).symm
  exact ⟨fun d hd ↦ getGradientsForOneQuery_rename L kMinScore hQ hid o tid lam₁ hess₁ lam₂ hess₂ hd, hQ.getGradientsForOneQuery_state_eq L o tid lam₁ hess₁ lam₂ hess₂⟩

end Shift

end RankObjective
