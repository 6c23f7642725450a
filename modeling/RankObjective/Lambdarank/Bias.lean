import RankObjective.Lambdarank.Gradients

/-!
# The position-bias estimator across boosting iterations

The constructor and `Init` build a `LambdarankNDCG` with bias powers `1` and zeroed costs.  Each
`GetGradients` call runs the dispatcher, whose queries add their pair costs to the buffer row of
the thread that runs them, and with `unbiased_` then `UpdatePositionBiasesAndGradients` sums the
rows into the cost vectors, sets the bias powers from them and clears everything it summed.

Costs and buffers are therefore zero in every reachable state, and one call sets the bias powers
from the costs of that call alone, whatever the schedule of its parallel loop.
-/

namespace RankObjective

variable {K : Type} [LinearOrderedField K]

/-- `omp_get_num_threads()`: the size of the team running the innermost enclosing parallel
region, `1` outside every parallel region. -/
def ompGetNumThreads (team : Option ℕ) : ℕ := team.getD 1

/-- The body of the accumulation loop of `UpdatePositionBiasesAndGradients` (lines 432-437) for
thread `i` and rank `j`, on one cost vector and its buffer; the body updates the `i` and the `j`
arrays alike and apart. -/
def collectStep (acc : (ℕ → K) × (ℕ → ℕ → K)) (i j : ℕ) : (ℕ → K) × (ℕ → ℕ → K) :=
  (Function.update acc.1 j (acc.1 j + acc.2 i j),
   Function.update acc.2 i (Function.update (acc.2 i) j 0))

/-- The accumulation loop of `UpdatePositionBiasesAndGradients` (lines 430-439). -/
def collectCosts (numThreads T : ℕ) (costs : ℕ → K) (buffer : ℕ → ℕ → K) :
    (ℕ → K) × (ℕ → ℕ → K) :=
  (List.range numThreads).foldl (fun acc i ↦
    (List.range T).foldl (fun acc j ↦ collectStep acc i j) acc) (costs, buffer)

/-- The bias loop of `UpdatePositionBiasesAndGradients` (lines 443-447) on one vector. -/
def updateBiasesPow (L : Libm K) (T : ℕ) (eta : K) (costs biasesPow : ℕ → K) : ℕ → K :=
  (List.range T).foldl (fun b i ↦ Function.update b i (L.pow (costs i / costs 0) eta)) biasesPow

/-- The clearing loop of `UpdatePositionBiasesAndGradients` (lines 449-453) on one vector. -/
def clearCosts (T : ℕ) (costs : ℕ → K) : ℕ → K :=
  (List.range T).foldl (fun c i ↦ Function.update c i 0) costs

/-- `UpdatePositionBiasesAndGradients`; `LogDebugPositionBiases` only logs. -/
def updatePositionBiasesAndGradients (L : Libm K) (o : LambdarankNDCG K) : LambdarankNDCG K :=
  let ci := collectCosts o.numThreads o.truncationLevel o.iCosts o.iCostsBuffer
  let cj := collectCosts o.numThreads o.truncationLevel o.jCosts o.jCostsBuffer
  { o with
    iCostsBuffer := ci.2
    jCostsBuffer := cj.2
    iBiasesPow := updateBiasesPow L o.truncationLevel o.eta ci.1 o.iBiasesPow
    jBiasesPow := updateBiasesPow L o.truncationLevel o.eta cj.1 o.jBiasesPow
    iCosts := clearCosts o.truncationLevel ci.1
    jCosts := clearCosts o.truncationLevel cj.1 }

omit [LinearOrderedField K] in
/-- A loop that writes `v i` at every `i` of `is`. -/
theorem foldl_update_apply {α : Type} (is : List ℕ) (v f : ℕ → α) (r : ℕ) :
    (is.foldl (fun f i ↦ Function.update f i (v i)) f) r = if r ∈ is then v r else f r := by
  induction is generalizing f with
  | nil => simp
  | cons i is ih =>
    rw [List.foldl_cons, ih]
    by_cases h : r = i
    · subst h; simp
    · simp [Function.update_apply, h]

theorem updateBiasesPow_apply (L : Libm K) (T : ℕ) (eta : K) (costs biasesPow : ℕ → K) (r : ℕ) :
    updateBiasesPow L T eta costs biasesPow r =
      if r < T then L.pow (costs r / costs 0) eta else biasesPow r := by
  simp [updateBiasesPow, foldl_update_apply]

theorem clearCosts_apply (T : ℕ) (costs : ℕ → K) (r : ℕ) :
    clearCosts T costs r = if r < T then 0 else costs r := by
  simp only [clearCosts, foldl_update_apply (v := fun _ ↦ (0 : K)), List.mem_range]

@[simp] theorem collectStep_fst (acc : (ℕ → K) × (ℕ → ℕ → K)) (i j r : ℕ) :
    (collectStep acc i j).1 r = if r = j then acc.1 j + acc.2 i j else acc.1 r :=
  Function.update_apply ..

@[simp] theorem collectStep_snd (acc : (ℕ → K) × (ℕ → ℕ → K)) (i j t r : ℕ) :
    (collectStep acc i j).2 t r = if t = i ∧ r = j then 0 else acc.2 t r := by
  by_cases ht : t = i
  · subst ht; simp [collectStep, Function.update_apply]
  · simp [collectStep, ht]

/-- The inner loop of `collectCosts` on row `i`, over distinct ranks `js`: it adds the row's cells
to the costs and clears them. -/
theorem collectCosts_row (i : ℕ) {js : List ℕ} (hjs : js.Nodup) (acc : (ℕ → K) × (ℕ → ℕ → K)) :
    (∀ j, (js.foldl (fun acc j ↦ collectStep acc i j) acc).1 j =
      acc.1 j + if j ∈ js then acc.2 i j else 0) ∧
    ∀ t j, (js.foldl (fun acc j ↦ collectStep acc i j) acc).2 t j =
      if t = i ∧ j ∈ js then 0 else acc.2 t j := by
  induction js generalizing acc with
  | nil => simp
  | cons j js ih =>
    obtain ⟨hj, hjs⟩ := List.nodup_cons.mp hjs
    obtain ⟨h₁, h₂⟩ := ih hjs (collectStep acc i j)
    refine ⟨fun j' ↦ ?_, fun t j' ↦ ?_⟩
    · rw [List.foldl_cons, h₁, collectStep_fst, collectStep_snd]
      by_cases h : j' = j
      · subst h; simp [hj]
      · simp [h]
    · rw [List.foldl_cons, h₂, collectStep_snd]
      simp only [List.mem_cons]
      by_cases hA : t = i ∧ j' ∈ js
      · rw [if_pos hA, if_pos ⟨hA.1, .inr hA.2⟩]
      · rw [if_neg hA]
        exact if_congr (by tauto) rfl rfl

/-- The outer loop of `collectCosts` over distinct threads `is`. -/
theorem collectCosts_rows {is : List ℕ} (his : is.Nodup) (T : ℕ) (acc : (ℕ → K) × (ℕ → ℕ → K)) :
    let r := is.foldl (fun acc i ↦ (List.range T).foldl (fun acc j ↦ collectStep acc i j) acc) acc
    (∀ j, r.1 j = acc.1 j + (is.map fun t ↦ if j < T then acc.2 t j else 0).sum) ∧
      ∀ t j, r.2 t j = if t ∈ is ∧ j < T then 0 else acc.2 t j := by
  induction is generalizing acc with
  | nil => simp
  | cons i is ih =>
    obtain ⟨hi, his⟩ := List.nodup_cons.mp his
    obtain ⟨r₁, r₂⟩ := collectCosts_row i (List.nodup_range T) acc
    obtain ⟨h₁, h₂⟩ := ih his ((List.range T).foldl (fun acc j ↦ collectStep acc i j) acc)
    have hrow : ∀ t ∈ is, ∀ j,
        (if j < T then ((List.range T).foldl (fun acc j ↦ collectStep acc i j) acc).2 t j
          else 0) = if j < T then acc.2 t j else 0 := fun t ht j ↦ by
      rw [r₂, if_neg (show ¬ (t = i ∧ j ∈ List.range T) from fun h ↦ hi (h.1 ▸ ht))]
    refine ⟨fun j ↦ ?_, fun t j ↦ ?_⟩
    · rw [List.foldl_cons, h₁, r₁, List.map_congr_left (hrow · · j), List.map_cons,
        List.sum_cons]
      simp only [List.mem_range, add_assoc]
    · rw [List.foldl_cons, h₂, r₂]
      simp only [List.mem_range, List.mem_cons]
      by_cases hA : t ∈ is ∧ j < T
      · rw [if_pos hA, if_pos ⟨.inr hA.1, hA.2⟩]
      · rw [if_neg hA]
        exact if_congr (by tauto) rfl rfl

/-- `collectCosts` adds every row of the team to the costs and clears the rows, on the ranks
below `T`. -/
theorem collectCosts_apply (numThreads T : ℕ) (costs : ℕ → K) (buffer : ℕ → ℕ → K) :
    (∀ j, (collectCosts numThreads T costs buffer).1 j =
      costs j + ∑ t in Finset.range numThreads, if j < T then buffer t j else 0) ∧
    ∀ t j, (collectCosts numThreads T costs buffer).2 t j =
      if t < numThreads ∧ j < T then 0 else buffer t j := by
  obtain ⟨h₁, h₂⟩ := collectCosts_rows (List.nodup_range numThreads) T (costs, buffer)
  exact ⟨h₁, fun t j ↦ by simp only [collectCosts, h₂, List.mem_range]⟩

/-- Summing the buffer rows of a team collects each query of a schedule once. -/
theorem sum_rows_schedule {numQueries numThreads : ℕ} {schedule : List (ℕ × ℕ)}
    (hs : IsSchedule numQueries numThreads schedule) (f : ℕ → K) :
    ∑ t in Finset.range numThreads, (schedule.map fun p ↦ if p.2 = t then f p.1 else 0).sum =
      ∑ q in Finset.range numQueries, f q := by
  have key : ∀ l : List (ℕ × ℕ), (∀ p ∈ l, p.2 < numThreads) →
      ∑ t in Finset.range numThreads, (l.map fun p ↦ if p.2 = t then f p.1 else 0).sum =
        (l.map fun p ↦ f p.1).sum := by
    intro l hl
    induction l with
    | nil => simp
    | cons p l ih =>
      simp only [List.map_cons, List.sum_cons, Finset.sum_add_distrib, Finset.sum_ite_eq,
        Finset.mem_range, if_pos (hl p (List.mem_cons_self _ _))]
      rw [ih fun q hq ↦ hl q (List.mem_cons_of_mem _ hq)]
  rw [key schedule hs.2]
  calc (schedule.map fun p ↦ f p.1).sum = ((schedule.map Prod.fst).map f).sum := by
        rw [List.map_map]; rfl
    _ = ((List.range numQueries).map f).sum := (hs.1.map f).sum_eq
    _ = ∑ q in Finset.range numQueries, f q := rfl

/-- The accumulation loop after a call whose schedule added `f q` to the row of the thread of
each query `q`, over a cleared rank: the total cost of the call. -/
theorem collectCosts_schedule {numQueries numThreads T : ℕ} {schedule : List (ℕ × ℕ)}
    (hs : IsSchedule numQueries numThreads schedule) {costs : ℕ → K} {buffer : ℕ → ℕ → K}
    (f : ℕ → ℕ → K) {r : ℕ} (hr : r < T) (hc : costs r = 0)
    (hb : ∀ t < numThreads, buffer t r = 0) :
    (collectCosts numThreads T costs fun t r ↦
      buffer t r + (schedule.map fun p ↦ if p.2 = t then f p.1 r else 0).sum).1 r =
        ∑ q in Finset.range numQueries, f q r := by
  rw [(collectCosts_apply _ _ _ _).1, hc, zero_add, ← sum_rows_schedule hs (f · r)]
  exact Finset.sum_congr rfl fun t ht ↦ by rw [if_pos hr, hb t (Finset.mem_range.mp ht), zero_add]

/-- `InitPositionBiasesAndGradients`: bias powers `1` and costs `0` on the `truncation_level_`
ranks, and `num_threads_` zeroed buffer rows of that length. -/
def initPositionBiasesAndGradients (o : LambdarankNDCG K) : LambdarankNDCG K :=
  { o with
    iBiasesPow := fun r ↦ if r < o.truncationLevel then 1 else o.iBiasesPow r
    jBiasesPow := fun r ↦ if r < o.truncationLevel then 1 else o.jBiasesPow r
    iCosts := fun r ↦ if r < o.truncationLevel then 0 else o.iCosts r
    jCosts := fun r ↦ if r < o.truncationLevel then 0 else o.jCosts r
    iCostsBuffer := fun t r ↦
      if t < o.numThreads ∧ r < o.truncationLevel then 0 else o.iCostsBuffer t r
    jCostsBuffer := fun t r ↦
      if t < o.numThreads ∧ r < o.truncationLevel then 0 else o.jCostsBuffer t r }

variable [FloorRing K]

/-- The members that the constructor `LambdarankNDCG(config)`, run inside the parallel region
`team` if any, and `Init` set on the base object `base`, before `InitPositionBiasesAndGradients`:
the gain table as `DefaultLabelGain` leaves it, and the inverse ideal DCGs computed from it.  The
vectors start empty, read as `0`. -/
def LambdarankNDCG.ofBase (L : Libm K) (config : Config K) (team : Option ℕ)
    (base : RankingObjective K) : LambdarankNDCG K :=
  let T := config.lambdarankTruncationLevel
  let labelGain := defaultLabelGain config.labelGain
  { base with
    sigmoid := config.sigmoid
    norm := config.lambdarankNorm
    truncationLevel := T
    unbiased := config.lambdarankUnbiased
    eta := config.lambdarankEta
    labelGain := labelGain
    numThreads := ompGetNumThreads team
    inverseMaxDcgs := fun i ↦
      inverseMaxDcg L labelGain T (base.cnt i) (shiftBy base.label (base.start i))
    sigmoidTable := constructSigmoidTable L config.sigmoid
    iBiasesPow := fun _ ↦ 0
    jBiasesPow := fun _ ↦ 0
    iCosts := fun _ ↦ 0
    jCosts := fun _ ↦ 0
    iCostsBuffer := fun _ _ ↦ 0
    jCostsBuffer := fun _ _ ↦ 0 }

/-- The constructor `LambdarankNDCG(config)` followed by `Init(metadata, num_data)`, with its
fatal errors. -/
def LambdarankNDCG.create (L : Libm K) (config : Config K) (team : Option ℕ)
    (metadata : Metadata K) (numData : ℕ) : Except (Fatal K) (LambdarankNDCG K) := do
  if config.sigmoid ≤ 0 then throw (.sigmoidNotPositive config.sigmoid)
  let base ← RankingObjective.init config.objectiveSeed metadata numData
  if !checkLabel (defaultLabelGain config.labelGain) numData base.label then throw .badLabel
  pure <| initPositionBiasesAndGradients (LambdarankNDCG.ofBase L config team base)

/-- `LambdarankNDCG::GetGradients`: the dispatcher, then the bias update when `unbiased_`. -/
def LambdarankNDCG.getGradients (L : Libm K) (kMinScore : K) (o : LambdarankNDCG K)
    (score : ℕ → K) (schedule : List (ℕ × ℕ)) (gradients hessians : ℕ → K) :
    GradientBuffers K (LambdarankNDCG K) :=
  let r := o.toRankingObjective.getGradients (lambdarankOneQuery L kMinScore) score schedule
    ⟨gradients, hessians, o⟩
  if o.unbiased then { r with state := updatePositionBiasesAndGradients L r.state } else r

/-- The states of a `LambdarankNDCG` over a training run: built by the constructor and `Init`,
then changed by `GetGradients` calls whose parallel loop runs each query once, on a thread of
`[0, num_threads_)`. -/
inductive Reachable (L : Libm K) (kMinScore : K) : LambdarankNDCG K → Prop
  | create {config : Config K} {team : Option ℕ} {metadata : Metadata K} {numData : ℕ}
      {o : LambdarankNDCG K} :
      LambdarankNDCG.create L config team metadata numData = .ok o → Reachable L kMinScore o
  | getGradients {o : LambdarankNDCG K} (score : ℕ → K) (schedule : List (ℕ × ℕ))
      (gradients hessians : ℕ → K) :
      Reachable L kMinScore o → IsSchedule o.numQueries o.numThreads schedule →
        Reachable L kMinScore (o.getGradients L kMinScore score schedule gradients hessians).state

/-- A training run of a `LambdarankNDCG` built with `config`: its states after `k` calls, each
running every query once on a team of `teamSize` threads. -/
def LambdarankNDCG.Run (L : Libm K) (kMinScore : K) (config : Config K) (teamSize : ℕ) :
    ℕ → LambdarankNDCG K → Prop :=
  AfterCalls
    (fun o ↦ ∃ team metadata numData, LambdarankNDCG.create L config team metadata numData = .ok o)
    (fun o ↦ o.numQueries) (LambdarankNDCG.getGradients L kMinScore) teamSize

/-- The cost vectors and the buffer rows of the team are zero on the ranks below
`truncation_level_`. -/
def CostsCleared (o : LambdarankNDCG K) : Prop :=
  ∀ r < o.truncationLevel, o.iCosts r = 0 ∧ o.jCosts r = 0 ∧
    ∀ t < o.numThreads, o.iCostsBuffer t r = 0 ∧ o.jCostsBuffer t r = 0

/-- What a successful construction returns: `InitPositionBiasesAndGradients` on the members set
by the constructor and `Init`. -/
theorem create_eq_ok {L : Libm K} {config : Config K} {team : Option ℕ} {metadata : Metadata K}
    {numData : ℕ} {o : LambdarankNDCG K}
    (h : LambdarankNDCG.create L config team metadata numData = .ok o) :
    ∃ base, o = initPositionBiasesAndGradients (LambdarankNDCG.ofBase L config team base) := by
  unfold LambdarankNDCG.create RankingObjective.init at h
  split_ifs at h
  · cases h
  · split at h
    · cases h
    · simp only [bind, Except.bind, pure, Except.pure] at h
      split_ifs at h
      cases h
      exact ⟨_, rfl⟩

/-- A built objective holds labels that pass the check of `Init`. -/
theorem create_checkLabel {L : Libm K} {config : Config K} {team : Option ℕ}
    {metadata : Metadata K} {numData : ℕ} {o : LambdarankNDCG K}
    (h : LambdarankNDCG.create L config team metadata numData = .ok o) :
    checkLabel o.labelGain o.numData o.label = true := by
  unfold LambdarankNDCG.create RankingObjective.init at h
  split_ifs at h
  · cases h
  · split at h
    · cases h
    · simp only [bind, Except.bind, pure, Except.pure] at h
      split_ifs at h with hl
      cases h
      simpa using hl

/-- The construction succeeds when the sigmoid is positive, the query boundaries are given and
the labels pass `CheckLabel`. -/
theorem create_eq_ok_of {L : Libm K} {config : Config K} {team : Option ℕ}
    {metadata : Metadata K} {numData : ℕ} {queryBoundaries : ℕ → ℕ} (hs : 0 < config.sigmoid)
    (hq : metadata.queryBoundaries = some queryBoundaries)
    (hl : checkLabel (defaultLabelGain config.labelGain) numData metadata.label = true) :
    LambdarankNDCG.create L config team metadata numData = .ok (initPositionBiasesAndGradients
      (LambdarankNDCG.ofBase L config team ⟨config.objectiveSeed, metadata.numQueries, numData,
        metadata.label, metadata.weights, queryBoundaries⟩)) := by
  simp [LambdarankNDCG.create, RankingObjective.init, not_le.mpr hs, hq, hl, bind, Except.bind,
    pure, Except.pure]

/-- The construction fails exactly at the first check that does not hold, in the order the
constructor and `Init` run them, and its error names that check: the sigmoid, then the query
boundaries, then the labels. -/
theorem create_eq_error_iff {L : Libm K} {config : Config K} {team : Option ℕ}
    {metadata : Metadata K} {numData : ℕ} {e : Fatal K} :
    LambdarankNDCG.create L config team metadata numData = .error e ↔
      (config.sigmoid ≤ 0 ∧ e = .sigmoidNotPositive config.sigmoid) ∨
      (0 < config.sigmoid ∧ metadata.queryBoundaries = none ∧ e = .noQueryInformation) ∨
      (0 < config.sigmoid ∧ metadata.queryBoundaries ≠ none ∧
        checkLabel (defaultLabelGain config.labelGain) numData metadata.label = false ∧
          e = .badLabel) := by
  unfold LambdarankNDCG.create RankingObjective.init
  by_cases hs : config.sigmoid ≤ 0
  · simp [hs, not_lt.mpr hs, bind, Except.bind, throw, throwThe, MonadExceptOf.throw]
    exact eq_comm
  · rcases hq : metadata.queryBoundaries with _ | qb
    · simp [hs, hq, bind, Except.bind, pure, Except.pure, not_le.mp hs]
      exact eq_comm
    · cases hl : checkLabel (defaultLabelGain config.labelGain) numData metadata.label
      · simp [hs, hq, hl, bind, Except.bind, pure, Except.pure, not_le.mp hs]
        exact eq_comm
      · simp [hs, hq, hl, bind, Except.bind, pure, Except.pure]

omit [FloorRing K] in
theorem costsCleared_initPositionBiasesAndGradients (p : LambdarankNDCG K) :
    CostsCleared (initPositionBiasesAndGradients p) := fun r hr ↦ by
  simp_all [initPositionBiasesAndGradients]

section Estimator

variable (L : Libm K) (kMinScore : K)

/-- `Ci[r]`: the cost that the queries of one call collect at rank `r` for `i_costs_`. -/
def roundICost (o : LambdarankNDCG K) (score : ℕ → K) (r : ℕ) : K :=
  ∑ q in Finset.range o.numQueries, queryICost L kMinScore o (o.query score q) r

/-- `Cj[r]`: the cost that the queries of one call collect at rank `r` for `j_costs_`. -/
def roundJCost (o : LambdarankNDCG K) (score : ℕ → K) (r : ℕ) : K :=
  ∑ q in Finset.range o.numQueries, queryJCost L kMinScore o (o.query score q) r

/-- Along a schedule the dispatcher changes the object only in its cost buffers, where row `t`
gains the costs of the queries that thread `t` runs. -/
theorem getGradients_lambdarankOneQuery_state (b : RankingObjective K) (score : ℕ → K)
    (o : LambdarankNDCG K) :
    ∀ (schedule : List (ℕ × ℕ)) (acc : GradientBuffers K (LambdarankNDCG K)) (A B : ℕ → ℕ → K),
      acc.state = o.withBuffers A B →
        (b.getGradients (lambdarankOneQuery L kMinScore) score schedule acc).state =
          o.withBuffers
            (fun t r ↦ A t r + (schedule.map fun p ↦
              if p.2 = t then queryICost L kMinScore o (b.query score p.1) r else 0).sum)
            (fun t r ↦ B t r + (schedule.map fun p ↦
              if p.2 = t then queryJCost L kMinScore o (b.query score p.1) r else 0).sum)
  | [], acc, A, B, h => by simpa using h
  | p :: schedule, acc, A, B, h => by
    have hstep : (b.queryStep (lambdarankOneQuery L kMinScore) score acc p.1 p.2).state =
        o.withBuffers
          (Function.update A p.2 fun r ↦ A p.2 r + queryICost L kMinScore o (b.query score p.1) r)
          (Function.update B p.2 fun r ↦ B p.2 r + queryJCost L kMinScore o (b.query score p.1) r) := by
      show (getGradientsForOneQuery L kMinScore acc.state _ p.2 _ _).state = _
      rw [getGradientsForOneQuery_state, h]
      simp
    rw [RankingObjective.getGradients_cons, getGradients_lambdarankOneQuery_state b score o schedule _ _ _ hstep]
    congr 1 <;> funext t r <;> by_cases ht : t = p.2
    all_goals simp [Function.update_apply, ht, add_assoc, Ne.symm]

/-- The state after a `GetGradients` call: the buffers as the dispatcher leaves them, then with
`unbiased_` the bias update. -/
theorem getGradients_state (o : LambdarankNDCG K) (score : ℕ → K) (schedule : List (ℕ × ℕ))
    (gradients hessians : ℕ → K) :
    (o.getGradients L kMinScore score schedule gradients hessians).state =
      let o' := o.withBuffers
        (fun t r ↦ o.iCostsBuffer t r + (schedule.map fun p ↦
          if p.2 = t then queryICost L kMinScore o (o.query score p.1) r else 0).sum)
        (fun t r ↦ o.jCostsBuffer t r + (schedule.map fun p ↦
          if p.2 = t then queryJCost L kMinScore o (o.query score p.1) r else 0).sum)
      if o.unbiased then updatePositionBiasesAndGradients L o' else o' := by
  have h := getGradients_lambdarankOneQuery_state L kMinScore o.toRankingObjective score o schedule
    ⟨gradients, hessians, o⟩ o.iCostsBuffer o.jCostsBuffer rfl
  unfold LambdarankNDCG.getGradients
  split_ifs <;> simp only [h]

/-- The bias update changes the object only: a call writes what the dispatcher writes. -/
@[simp] theorem LambdarankNDCG.getGradients_gradients (o : LambdarankNDCG K) (score : ℕ → K)
    (schedule : List (ℕ × ℕ)) (gradients hessians : ℕ → K) :
    (o.getGradients L kMinScore score schedule gradients hessians).gradients =
      (o.toRankingObjective.getGradients (lambdarankOneQuery L kMinScore) score schedule
        ⟨gradients, hessians, o⟩).gradients := by
  unfold LambdarankNDCG.getGradients
  split <;> rfl

@[simp] theorem LambdarankNDCG.getGradients_hessians (o : LambdarankNDCG K) (score : ℕ → K)
    (schedule : List (ℕ × ℕ)) (gradients hessians : ℕ → K) :
    (o.getGradients L kMinScore score schedule gradients hessians).hessians =
      (o.toRankingObjective.getGradients (lambdarankOneQuery L kMinScore) score schedule
        ⟨gradients, hessians, o⟩).hessians := by
  unfold LambdarankNDCG.getGradients
  split <;> rfl

/-- A call clears the costs again: the bias update clears what it sums, and without `unbiased_`
no query adds any cost. -/
theorem costsCleared_getGradients {o : LambdarankNDCG K} (hc : CostsCleared o) (score : ℕ → K)
    (schedule : List (ℕ × ℕ)) (gradients hessians : ℕ → K) :
    CostsCleared (o.getGradients L kMinScore score schedule gradients hessians).state := by
  rw [getGradients_state]
  cases hu : o.unbiased
  · intro r hr
    obtain ⟨hi, hj, hb⟩ := hc r hr
    simpa [queryICost_of_not_unbiased L kMinScore hu,
      queryJCost_of_not_unbiased L kMinScore hu] using ⟨hi, hj, hb⟩
  · intro r hr
    simp only [if_true, updatePositionBiasesAndGradients, LambdarankNDCG.withBuffers,
      clearCosts_apply, (collectCosts_apply _ _ _ _).2]
    exact ⟨if_pos hr, if_pos hr, fun t ht ↦ ⟨if_pos ⟨ht, hr⟩, if_pos ⟨ht, hr⟩⟩⟩

/-- Costs and buffers are cleared in every reachable state. -/
theorem costsCleared_of_reachable {o : LambdarankNDCG K} (h : Reachable L kMinScore o) :
    CostsCleared o := by
  induction h with
  | create h =>
    obtain ⟨base, rfl⟩ := create_eq_ok h
    exact costsCleared_initPositionBiasesAndGradients _
  | getGradients score schedule gradients hessians _ _ ih =>
    exact costsCleared_getGradients L kMinScore ih score schedule gradients hessians

/-- A call with `unbiased_` from a state with cleared costs, its queries run by threads of the
team, sets each bias power below `truncation_level_` from the costs of that call alone. -/
theorem getGradients_biasesPow {o : LambdarankNDCG K} (hc : CostsCleared o)
    (hu : o.unbiased = true) {schedule : List (ℕ × ℕ)}
    (hs : IsSchedule o.numQueries o.numThreads schedule) (score gradients hessians : ℕ → K)
    {r : ℕ} (hr : r < o.truncationLevel) :
    (o.getGradients L kMinScore score schedule gradients hessians).state.iBiasesPow r =
        L.pow (roundICost L kMinScore o score r / roundICost L kMinScore o score 0) o.eta ∧
      (o.getGradients L kMinScore score schedule gradients hessians).state.jBiasesPow r =
        L.pow (roundJCost L kMinScore o score r / roundJCost L kMinScore o score 0) o.eta := by
  have h0 : 0 < o.truncationLevel := lt_of_le_of_lt (Nat.zero_le r) hr
  rw [getGradients_state]
  simp only [hu, if_true, updatePositionBiasesAndGradients, LambdarankNDCG.withBuffers,
    updateBiasesPow_apply, if_pos hr]
  unfold roundICost roundJCost
  have fi := fun {r} (hr : r < o.truncationLevel) ↦ collectCosts_schedule hs
    (fun q r ↦ queryICost L kMinScore o (o.query score q) r) hr (hc r hr).1
    fun t ht ↦ ((hc r hr).2.2 t ht).1
  have fj := fun {r} (hr : r < o.truncationLevel) ↦ collectCosts_schedule hs
    (fun q r ↦ queryJCost L kMinScore o (o.query score q) r) hr (hc r hr).2.1
    fun t ht ↦ ((hc r hr).2.2 t ht).2
  rw [fi hr, fi h0, fj hr, fj h0]
  exact ⟨rfl, rfl⟩

end Estimator

end RankObjective
