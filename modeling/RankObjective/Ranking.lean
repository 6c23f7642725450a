import RankObjective.Basic

/-!
# The query dispatcher of `RankingObjective`

`RankingObjective::GetGradients` runs the objective's `GetGradientsForOneQuery` on every query in
an `omp parallel for`.  The routine sees the label, score and output arrays through pointers to
the query's first document, and the dispatcher then multiplies the query's slice by the document
weights.  A run of the loop is given by its schedule, the list of `(query, thread)` steps in the
order they take effect.

A routine that writes its arrays only below `cnt` (`Frames`) leaves every other query's slice
alone, so each slice holds what the step of its own query wrote; when the routine also overwrites
its slice without reading it (`Overwrites`), the result is independent of what the output arrays
held before the call.
-/

namespace RankObjective

variable {K σ : Type}

/-- The arguments of `GetGradientsForOneQuery` that describe the query: `query_id`, `cnt`, and
the `label` and `score` arrays seen from the query's first document. -/
structure Query (K : Type) where
  queryId : ℕ
  cnt : ℕ
  label : ℕ → K
  score : ℕ → K

/-- The gradient and hessian arrays together with the members of the objective that the
computation writes. -/
structure GradientBuffers (K σ : Type) where
  gradients : ℕ → K
  hessians : ℕ → K
  state : σ

/-- The type of `GetGradientsForOneQuery`: the objective, the thread id, the query and the
query's output arrays in; the output arrays and the objective out. -/
abbrev OneQuery (K σ : Type) := σ → ℕ → Query K → (ℕ → K) → (ℕ → K) → GradientBuffers K σ

/-- The fatal errors of the objectives' construction, each with the text `Log::Fatal` prints. -/
inductive Fatal (K : Type) where
  /-- "Ranking tasks require query information" -/
  | noQueryInformation
  /-- "Sigmoid param %f should be greater than zero" -/
  | sigmoidNotPositive (sigmoid : K)
  /-- The label check `DCGCalculator::CheckLabel` failed. -/
  | badLabel

/-- The parts of `Metadata` that `RankingObjective::Init` reads. -/
structure Metadata (K : Type) where
  label : ℕ → K
  weights : Option (ℕ → K)
  queryBoundaries : Option (ℕ → ℕ)
  numQueries : ℕ

/-- The members of `RankingObjective`. -/
structure RankingObjective (K : Type) where
  seed : ℤ
  numQueries : ℕ
  numData : ℕ
  label : ℕ → K
  weights : Option (ℕ → K)
  queryBoundaries : ℕ → ℕ
  deriving Inhabited

/-- `RankingObjective::Init`, after the constructor stored `seed`. -/
def RankingObjective.init (seed : ℤ) (metadata : Metadata K) (numData : ℕ) :
    Except (Fatal K) (RankingObjective K) :=
  match metadata.queryBoundaries with
  | none => .error .noQueryInformation
  | some queryBoundaries =>
    .ok { seed, numQueries := metadata.numQueries, numData, label := metadata.label,
          weights := metadata.weights, queryBoundaries }

/-- The array read through `p + start`, where `p` points at `f`. -/
def shiftBy (f : ℕ → K) (start : ℕ) : ℕ → K := fun d ↦ f (start + d)

@[simp] theorem shiftBy_zero (f : ℕ → K) : shiftBy f 0 = f := funext fun d ↦ by simp [shiftBy]

/-- The array `buf` after every cell `start + d` was written through `buf + start` with
`view d`. -/
def writeFrom (buf : ℕ → K) (start : ℕ) (view : ℕ → K) : ℕ → K :=
  fun x ↦ if start ≤ x then view (x - start) else buf x

/-- The weighting loop of `GetGradients` over the slice `[start, start + cnt)`. -/
def weighSlice [Mul K] (weights : Option (ℕ → K)) (start cnt : ℕ) (buf : ℕ → K) : ℕ → K :=
  match weights with
  | none => buf
  | some w => fun x ↦ if start ≤ x ∧ x < start + cnt then buf x * w x else buf x

/-- The factor the weighting loop applies at document `x` of a slice. -/
def weighAt [Mul K] (weights : Option (ℕ → K)) (x : ℕ) (v : K) : K :=
  match weights with
  | none => v
  | some w => v * w x

/-- A `GetGradientsForOneQuery` that writes its output arrays only below `cnt`. -/
def Frames (oneQuery : OneQuery K σ) : Prop :=
  ∀ s tid Q lam hess d, Q.cnt ≤ d →
    (oneQuery s tid Q lam hess).gradients d = lam d ∧ (oneQuery s tid Q lam hess).hessians d = hess d

/-- A `GetGradientsForOneQuery` whose objective and whose output below `cnt` do not depend on
what the output arrays held. -/
def Overwrites (oneQuery : OneQuery K σ) : Prop :=
  ∀ s tid Q lam hess lam' hess', (oneQuery s tid Q lam hess).state = (oneQuery s tid Q lam' hess').state ∧
    ∀ d < Q.cnt, (oneQuery s tid Q lam hess).gradients d = (oneQuery s tid Q lam' hess').gradients d ∧
      (oneQuery s tid Q lam hess).hessians d = (oneQuery s tid Q lam' hess').hessians d

/-- A run of the parallel loop by a team of `teamSize` threads: every query once, each by a thread
of the team. -/
def IsSchedule (numQueries teamSize : ℕ) (schedule : List (ℕ × ℕ)) : Prop :=
  (schedule.map Prod.fst).Perm (List.range numQueries) ∧ ∀ p ∈ schedule, p.2 < teamSize

/-- Query boundaries that partition `[0, num_data_)`: non-decreasing from `0` to `num_data_`. -/
def RankingObjective.Partitions (b : RankingObjective K) : Prop :=
  b.queryBoundaries 0 = 0 ∧ b.queryBoundaries b.numQueries = b.numData ∧
    ∀ q < b.numQueries, b.queryBoundaries q ≤ b.queryBoundaries (q + 1)

namespace RankingObjective

variable (b : RankingObjective K) (oneQuery : OneQuery K σ) (score : ℕ → K)

/-- The first document `query_boundaries_[i]` of query `i`. -/
def start (i : ℕ) : ℕ := b.queryBoundaries i

/-- The size `query_boundaries_[i + 1] - query_boundaries_[i]` of query `i`. -/
def cnt (i : ℕ) : ℕ := b.queryBoundaries (i + 1) - b.queryBoundaries i

/-- Document `x` lies in the slice of query `i`. -/
def InSlice (i x : ℕ) : Prop := b.start i ≤ x ∧ x < b.start i + b.cnt i

instance (i x : ℕ) : Decidable (b.InSlice i x) := inferInstanceAs (Decidable (_ ∧ _))

/-- The query `i` as `GetGradients` hands it to `GetGradientsForOneQuery`. -/
def query (i : ℕ) : Query K :=
  ⟨i, b.cnt i, shiftBy b.label (b.start i), shiftBy score (b.start i)⟩

variable [Mul K]

/-- One iteration of the parallel loop: query `i` run by thread `tid`, then weighted. -/
def queryStep (acc : GradientBuffers K σ) (i tid : ℕ) : GradientBuffers K σ :=
  let r := oneQuery acc.state tid (b.query score i) (shiftBy acc.gradients (b.start i))
    (shiftBy acc.hessians (b.start i))
  ⟨weighSlice b.weights (b.start i) (b.cnt i) (writeFrom acc.gradients (b.start i) r.gradients),
   weighSlice b.weights (b.start i) (b.cnt i) (writeFrom acc.hessians (b.start i) r.hessians),
   r.state⟩

/-- `RankingObjective::GetGradients`: the `omp parallel for` runs the steps of `schedule` in its
order.  Queries run by different threads write disjoint slices and distinct thread buffers, so
every interleaving of their instructions has the effect of one such order. -/
def getGradients (schedule : List (ℕ × ℕ)) (init : GradientBuffers K σ) : GradientBuffers K σ :=
  schedule.foldl (fun acc p ↦ b.queryStep oneQuery score acc p.1 p.2) init

@[simp] theorem getGradients_nil (init : GradientBuffers K σ) :
    b.getGradients oneQuery score [] init = init := rfl

@[simp] theorem getGradients_cons (p : ℕ × ℕ) (schedule : List (ℕ × ℕ))
    (init : GradientBuffers K σ) :
    b.getGradients oneQuery score (p :: schedule) init =
      b.getGradients oneQuery score schedule (b.queryStep oneQuery score init p.1 p.2) := rfl

/-- What two accumulators agree on at document `x`. -/
def Agree (acc₁ acc₂ : GradientBuffers K σ) (x : ℕ) : Prop :=
  acc₁.gradients x = acc₂.gradients x ∧ acc₁.hessians x = acc₂.hessians x

omit [Mul K] in
theorem queryBoundaries_mono (hb : b.Partitions) {i j : ℕ} (hij : i ≤ j)
    (hj : j ≤ b.numQueries) : b.queryBoundaries i ≤ b.queryBoundaries j := by
  induction j, hij using Nat.le_induction with
  | base => exact le_rfl
  | succ j _ ih => exact (ih (by omega)).trans (hb.2.2 j (by omega))

omit [Mul K] in
/-- Slices of distinct queries are disjoint. -/
theorem eq_of_inSlice (hb : b.Partitions) {i j x : ℕ} (hi : i < b.numQueries)
    (hj : j < b.numQueries) (hxi : b.InSlice i x) (hxj : b.InSlice j x) : i = j := by
  unfold InSlice start cnt at hxi hxj
  have := hb.2.2 i hi
  have := hb.2.2 j hj
  by_contra hne
  rcases Nat.lt_or_gt_of_ne hne with h | h
  · have := b.queryBoundaries_mono hb (show i + 1 ≤ j by omega) hj.le
    omega
  · have := b.queryBoundaries_mono hb (show j + 1 ≤ i by omega) hi.le
    omega

omit [Mul K] in
/-- Every document lies in the slice of some query. -/
theorem exists_inSlice (hb : b.Partitions) {x : ℕ} (hx : x < b.numData) :
    ∃ i < b.numQueries, b.InSlice i x := by
  suffices ∀ n ≤ b.numQueries, x < b.queryBoundaries n → ∃ i < n, b.InSlice i x by
    obtain ⟨i, hi, h⟩ := this b.numQueries le_rfl (hb.2.1 ▸ hx)
    exact ⟨i, hi, h⟩
  intro n
  induction n with
  | zero => intro _ h; simp [hb.1] at h
  | succ n ih =>
    intro hn h
    by_cases hxn : x < b.queryBoundaries n
    · obtain ⟨i, hi, hs⟩ := ih (by omega) hxn
      exact ⟨i, by omega, hs⟩
    · have := hb.2.2 n (by omega)
      exact ⟨n, by omega, by unfold InSlice start cnt; omega⟩

theorem weighSlice_writeFrom {weights : Option (ℕ → K)} {f view : ℕ → K} {start cnt : ℕ}
    (h : ∀ d, cnt ≤ d → view d = f (start + d)) (x : ℕ) :
    weighSlice weights start cnt (writeFrom f start view) x =
      if start ≤ x ∧ x < start + cnt then weighAt weights x (view (x - start)) else f x := by
  have hw : writeFrom f start view x =
      if start ≤ x ∧ x < start + cnt then view (x - start) else f x := by
    unfold writeFrom
    split_ifs with h₁ h₂ <;> first | rfl | omega | skip
    rw [h _ (by omega), Nat.add_sub_cancel' h₁]
  cases weights <;> simp only [weighSlice, weighAt, hw]
  split_ifs <;> rfl

variable {oneQuery}

/-- The step of query `i` writes the weighted output of its routine over the query's slice and
leaves every other document alone. -/
theorem queryStep_apply (hF : Frames oneQuery) (acc : GradientBuffers K σ) (i tid x : ℕ) :
    let r := oneQuery acc.state tid (b.query score i) (shiftBy acc.gradients (b.start i))
      (shiftBy acc.hessians (b.start i))
    (b.queryStep oneQuery score acc i tid).state = r.state ∧
    (b.queryStep oneQuery score acc i tid).gradients x =
      (if b.InSlice i x then weighAt b.weights x (r.gradients (x - b.start i))
        else acc.gradients x) ∧
    (b.queryStep oneQuery score acc i tid).hessians x =
      (if b.InSlice i x then weighAt b.weights x (r.hessians (x - b.start i))
        else acc.hessians x) :=
  ⟨rfl, weighSlice_writeFrom (fun d hd ↦ (hF _ _ _ _ _ d hd).1) x,
    weighSlice_writeFrom (fun d hd ↦ (hF _ _ _ _ _ d hd).2) x⟩

/-- Steps of queries whose slices miss `x` leave `x` alone. -/
theorem getGradients_of_not_inSlice (hF : Frames oneQuery) {x : ℕ} :
    ∀ (schedule : List (ℕ × ℕ)) (acc : GradientBuffers K σ),
      (∀ p ∈ schedule, ¬ b.InSlice p.1 x) →
        Agree (b.getGradients oneQuery score schedule acc) acc x
  | [], _, _ => ⟨rfl, rfl⟩
  | p :: schedule, acc, h => by
    obtain ⟨-, hg, hh⟩ := b.queryStep_apply score hF acc p.1 p.2 x
    have hp := h p (List.mem_cons_self _ _)
    obtain ⟨ihg, ihh⟩ := getGradients_of_not_inSlice hF schedule _
      (fun q hq ↦ h q (List.mem_cons_of_mem _ hq))
    rw [if_neg hp] at hg hh
    exact ⟨ihg.trans hg, ihh.trans hh⟩

/-- A step keeps two accumulators with equal objectives equal on the objective, and in agreement
on the step's slice and wherever they agreed before. -/
theorem queryStep_agree (hF : Frames oneQuery) (hO : Overwrites oneQuery)
    {acc₁ acc₂ : GradientBuffers K σ} (hst : acc₁.state = acc₂.state) (i tid : ℕ) :
    (b.queryStep oneQuery score acc₁ i tid).state = (b.queryStep oneQuery score acc₂ i tid).state ∧
      ∀ x, (b.InSlice i x ∨ Agree acc₁ acc₂ x) →
        Agree (b.queryStep oneQuery score acc₁ i tid) (b.queryStep oneQuery score acc₂ i tid) x := by
  obtain ⟨hs, hd⟩ := hO acc₂.state tid (b.query score i) (shiftBy acc₁.gradients (b.start i))
    (shiftBy acc₁.hessians (b.start i)) (shiftBy acc₂.gradients (b.start i))
    (shiftBy acc₂.hessians (b.start i))
  refine ⟨by simpa [queryStep, hst] using hs, fun x hx ↦ ?_⟩
  obtain ⟨-, g₁, h₁⟩ := b.queryStep_apply score hF acc₁ i tid x
  obtain ⟨-, g₂, h₂⟩ := b.queryStep_apply score hF acc₂ i tid x
  rw [hst] at g₁ h₁
  rw [Agree, g₁, g₂, h₁, h₂]
  split_ifs with hi
  · unfold InSlice at hi
    obtain ⟨hdg, hdh⟩ := hd (x - b.start i) (Nat.sub_lt_left_of_lt_add hi.1 hi.2)
    exact ⟨by rw [hdg], by rw [hdh]⟩
  · exact hx.resolve_left hi

/-- Along a schedule, two accumulators with equal objectives come to agree on the slice of every
query the schedule runs, and keep agreeing on the slices they agreed on. -/
theorem getGradients_agree (hF : Frames oneQuery) (hO : Overwrites oneQuery) :
    ∀ (schedule : List (ℕ × ℕ)) (acc₁ acc₂ : GradientBuffers K σ) (S : ℕ → Prop),
      acc₁.state = acc₂.state → (∀ i, S i → ∀ x, b.InSlice i x → Agree acc₁ acc₂ x) →
        (b.getGradients oneQuery score schedule acc₁).state =
            (b.getGradients oneQuery score schedule acc₂).state ∧
          ∀ i, (S i ∨ ∃ p ∈ schedule, p.1 = i) → ∀ x, b.InSlice i x →
            Agree (b.getGradients oneQuery score schedule acc₁)
              (b.getGradients oneQuery score schedule acc₂) x
  | [], _, _, _, hst, hag => ⟨hst, fun i hi x hx ↦ hag i (by simpa using hi) x hx⟩
  | p :: schedule, acc₁, acc₂, S, hst, hag => by
    obtain ⟨hst₁, hstep⟩ := b.queryStep_agree score hF hO hst p.1 p.2
    have hag₁ : ∀ i, (S i ∨ i = p.1) → ∀ x, b.InSlice i x →
        Agree (b.queryStep oneQuery score acc₁ p.1 p.2) (b.queryStep oneQuery score acc₂ p.1 p.2) x := by
      rintro i hi x hx
      refine hstep x ?_
      by_cases hp : b.InSlice p.1 x
      · exact .inl hp
      · rcases hi with hi | rfl
        · exact .inr (hag i hi x hx)
        · exact absurd hx hp
    obtain ⟨hst', hag'⟩ := getGradients_agree hF hO schedule _ _ _ hst₁ hag₁
    refine ⟨hst', fun i hi x hx ↦ hag' i ?_ x hx⟩
    rcases hi with hi | ⟨q, hq, rfl⟩
    · exact .inl (.inl hi)
    · rcases List.mem_cons.mp hq with rfl | hq
      · exact .inl (.inr rfl)
      · exact .inr ⟨q, hq, rfl⟩

/-- With a routine that `Frames` and `Overwrites`, a call that runs every query leaves values on
`[0, num_data_)`, and an objective, that do not depend on what the output arrays held. -/
theorem getGradients_agree_of_overwrites (hF : Frames oneQuery) (hO : Overwrites oneQuery)
    (hb : b.Partitions) {schedule : List (ℕ × ℕ)}
    (hcover : ∀ i < b.numQueries, ∃ p ∈ schedule, p.1 = i) (g₁ h₁ g₂ h₂ : ℕ → K) (s : σ) :
    (b.getGradients oneQuery score schedule ⟨g₁, h₁, s⟩).state =
        (b.getGradients oneQuery score schedule ⟨g₂, h₂, s⟩).state ∧
      ∀ x < b.numData, Agree (b.getGradients oneQuery score schedule ⟨g₁, h₁, s⟩)
        (b.getGradients oneQuery score schedule ⟨g₂, h₂, s⟩) x := by
  obtain ⟨hst, hag⟩ := b.getGradients_agree score hF hO schedule ⟨g₁, h₁, s⟩ ⟨g₂, h₂, s⟩
    (fun _ ↦ False) rfl (fun _ h ↦ h.elim)
  refine ⟨hst, fun x hx ↦ ?_⟩
  obtain ⟨i, hi, hxi⟩ := b.exists_inSlice hb hx
  exact hag i (.inr (hcover i hi)) x hxi

end RankingObjective

theorem IsSchedule.exists_mem {numQueries teamSize : ℕ} {schedule : List (ℕ × ℕ)}
    (hs : IsSchedule numQueries teamSize schedule) {i : ℕ} (hi : i < numQueries) :
    ∃ p ∈ schedule, p.1 = i :=
  List.mem_map.mp (hs.1.mem_iff.mpr (List.mem_range.mpr hi))

theorem IsSchedule.fst_lt {numQueries teamSize : ℕ} {schedule : List (ℕ × ℕ)}
    (hs : IsSchedule numQueries teamSize schedule) {p : ℕ × ℕ} (hp : p ∈ schedule) :
    p.1 < numQueries :=
  List.mem_range.mp (hs.1.mem_iff.mp (List.mem_map_of_mem _ hp))

theorem IsSchedule.nodup {numQueries teamSize : ℕ} {schedule : List (ℕ × ℕ)}
    (hs : IsSchedule numQueries teamSize schedule) : (schedule.map Prod.fst).Nodup :=
  hs.1.nodup_iff.mpr (List.nodup_range _)

theorem IsSchedule.mem_iff {numQueries teamSize : ℕ} {schedule : List (ℕ × ℕ)}
    (hs : IsSchedule numQueries teamSize schedule) {i : ℕ} :
    i ∈ schedule.map Prod.fst ↔ i < numQueries :=
  hs.1.mem_iff.trans List.mem_range

/-! ## Runs of calls, and what the slice of one query depends on -/

/-- Two views of a query that agree on all a routine may read of it: the id, the size, and the
labels and scores of the query's own documents. -/
structure Query.Alike (Q₁ Q₂ : Query K) : Prop where
  queryId : Q₁.queryId = Q₂.queryId
  cnt : Q₁.cnt = Q₂.cnt
  label : ∀ d < Q₁.cnt, Q₁.label d = Q₂.label d
  score : ∀ d < Q₁.cnt, Q₁.score d = Q₂.score d

/-- The states of an objective after `k` calls of its `GetGradients`, `call`, from a state that
construction builds (`Built`), the parallel loop of every call running each query once on a team
of `teamSize` threads. -/
inductive AfterCalls (Built : σ → Prop) (numQueries : σ → ℕ)
    (call : σ → (ℕ → K) → List (ℕ × ℕ) → (ℕ → K) → (ℕ → K) → GradientBuffers K σ)
    (teamSize : ℕ) : ℕ → σ → Prop
  | built {o : σ} : Built o → AfterCalls Built numQueries call teamSize 0 o
  | call {k : ℕ} {o : σ} (score : ℕ → K) (schedule : List (ℕ × ℕ)) (gradients hessians : ℕ → K) :
      AfterCalls Built numQueries call teamSize k o → IsSchedule (numQueries o) teamSize schedule →
        AfterCalls Built numQueries call teamSize (k + 1)
          (call o score schedule gradients hessians).state

namespace RankingObjective

variable [Mul K] (b : RankingObjective K) {oneQuery : OneQuery K σ} (score : ℕ → K)

omit [Mul K] in
@[simp] theorem query_queryId (i : ℕ) : (b.query score i).queryId = i := rfl

@[simp] theorem queryStep_state (acc : GradientBuffers K σ) (i tid : ℕ) :
    (b.queryStep oneQuery score acc i tid).state =
      (oneQuery acc.state tid (b.query score i) (shiftBy acc.gradients (b.start i))
        (shiftBy acc.hessians (b.start i))).state := rfl

/-- What every step keeps holds of the objective after the call. -/
theorem getGradients_state_inv (I : σ → Prop)
    (hI : ∀ s tid Q lam hess, I s → I (oneQuery s tid Q lam hess).state) :
    ∀ (schedule : List (ℕ × ℕ)) (acc : GradientBuffers K σ), I acc.state →
      I (b.getGradients oneQuery score schedule acc).state
  | [], _, h => h
  | _ :: schedule, _, h => getGradients_state_inv I hI schedule _ (hI _ _ _ _ _ h)

/-- Two objectives related by `R`, under which the routine writes the same arrays and which its
every step keeps: a call from either, on the same arrays, writes the same arrays and leaves the
two objectives related. -/
theorem getGradients_simulate (R : σ → σ → Prop)
    (hR : ∀ s₁ s₂ tid Q lam hess, R s₁ s₂ →
      R (oneQuery s₁ tid Q lam hess).state (oneQuery s₂ tid Q lam hess).state ∧
        (oneQuery s₁ tid Q lam hess).gradients = (oneQuery s₂ tid Q lam hess).gradients ∧
        (oneQuery s₁ tid Q lam hess).hessians = (oneQuery s₂ tid Q lam hess).hessians) :
    ∀ (schedule : List (ℕ × ℕ)) (gradients hessians : ℕ → K) (s₁ s₂ : σ), R s₁ s₂ →
      R (b.getGradients oneQuery score schedule ⟨gradients, hessians, s₁⟩).state
          (b.getGradients oneQuery score schedule ⟨gradients, hessians, s₂⟩).state ∧
        (b.getGradients oneQuery score schedule ⟨gradients, hessians, s₁⟩).gradients =
          (b.getGradients oneQuery score schedule ⟨gradients, hessians, s₂⟩).gradients ∧
        (b.getGradients oneQuery score schedule ⟨gradients, hessians, s₁⟩).hessians =
          (b.getGradients oneQuery score schedule ⟨gradients, hessians, s₂⟩).hessians
  | [], _, _, _, _, h => ⟨h, rfl, rfl⟩
  | p :: schedule, g, hs, s₁, s₂, h => by
    obtain ⟨hst, hg, hh⟩ := hR s₁ s₂ p.2 (b.query score p.1) (shiftBy g (b.start p.1))
      (shiftBy hs (b.start p.1)) h
    simp only [getGradients_cons, queryStep, hg, hh]
    exact getGradients_simulate R hR schedule _ _ _ _ hst

/-- When the step of query `j` changes the part `V · j` of the objective by `F j` and leaves the
parts of the other queries alone, a call that runs each query at most once applies `F j` to the
part of every query it runs. -/
theorem getGradients_view {α : Type} (V : σ → ℕ → α) (F : ℕ → α → α)
    (hV : ∀ s tid j lam hess j', V (oneQuery s tid (b.query score j) lam hess).state j' =
      if j' = j then F j (V s j) else V s j') :
    ∀ (schedule : List (ℕ × ℕ)) (acc : GradientBuffers K σ), (schedule.map Prod.fst).Nodup →
      ∀ j, V (b.getGradients oneQuery score schedule acc).state j =
        if j ∈ schedule.map Prod.fst then F j (V acc.state j) else V acc.state j
  | [], acc, _, j => by simp
  | p :: schedule, acc, hnd, j => by
    rw [List.map_cons, List.nodup_cons] at hnd
    rw [getGradients_cons, getGradients_view V F hV schedule _ hnd.2 j, queryStep_state, hV]
    by_cases hj : j = p.1
    · subst hj
      simp [hnd.1]
    · have hm : j ∈ (p :: schedule).map Prod.fst ↔ j ∈ schedule.map Prod.fst := by simp [hj]
      simp only [if_neg hj, hm]

/-- The slice of a query that the call runs once holds the weighted output of one run of the
routine on that query, from a state in `I` when the steps of the other queries keep `I`. -/
theorem getGradients_of_inSlice_inv (hF : Frames oneQuery) (hb : b.Partitions) {i x : ℕ}
    (hi : i < b.numQueries) (hx : b.InSlice i x) (I : σ → Prop)
    (hI : ∀ s tid j lam hess, j ≠ i → I s → I (oneQuery s tid (b.query score j) lam hess).state) :
    ∀ (schedule : List (ℕ × ℕ)) (acc : GradientBuffers K σ),
      (∀ p ∈ schedule, p.1 < b.numQueries) → (schedule.map Prod.fst).Nodup →
        i ∈ schedule.map Prod.fst → I acc.state →
        ∃ s, I s ∧ ∃ tid lam hess,
          (b.getGradients oneQuery score schedule acc).gradients x =
            weighAt b.weights x ((oneQuery s tid (b.query score i) lam hess).gradients
              (x - b.start i)) ∧
          (b.getGradients oneQuery score schedule acc).hessians x =
            weighAt b.weights x ((oneQuery s tid (b.query score i) lam hess).hessians
              (x - b.start i))
  | [], _, _, _, hmem, _ => by simp at hmem
  | p :: schedule, acc, hlt, hnd, hmem, hacc => by
    rw [List.map_cons, List.nodup_cons] at hnd
    by_cases hp : p.1 = i
    · subst hp
      obtain ⟨-, hg, hh⟩ := b.queryStep_apply score hF acc p.1 p.2 x
      obtain ⟨ihg, ihh⟩ := b.getGradients_of_not_inSlice score hF schedule
        (b.queryStep oneQuery score acc p.1 p.2) fun q hq hqx ↦ hnd.1 <|
          eq_of_inSlice b hb (hlt q (List.mem_cons_of_mem _ hq)) hi hqx hx ▸ List.mem_map_of_mem _ hq
      rw [if_pos hx] at hg hh
      exact ⟨_, hacc, _, _, _, ihg.trans hg, ihh.trans hh⟩
    · exact getGradients_of_inSlice_inv hF hb hi hx I hI schedule _
        (fun q hq ↦ hlt q (List.mem_cons_of_mem _ hq)) hnd.2
        ((List.mem_cons.mp hmem).resolve_left (Ne.symm hp)) (hI _ _ _ _ _ hp hacc)

end RankingObjective

/-- Query `q` of two layouts, with a score vector each, as the query's own data shows it: the same
size, labels, weights and scores on its documents. -/
structure RankingObjective.SameQuery [Mul K] (b₁ b₂ : RankingObjective K) (score₁ score₂ : ℕ → K)
    (q : ℕ) : Prop where
  lt₁ : q < b₁.numQueries
  lt₂ : q < b₂.numQueries
  cnt : b₁.cnt q = b₂.cnt q
  label : ∀ d < b₁.cnt q, b₁.label (b₁.start q + d) = b₂.label (b₂.start q + d)
  weight : ∀ d < b₁.cnt q, ∀ v,
    weighAt b₁.weights (b₁.start q + d) v = weighAt b₂.weights (b₂.start q + d) v
  score : ∀ d < b₁.cnt q, score₁ (b₁.start q + d) = score₂ (b₂.start q + d)

/-- The routine sees query `q` of both layouts alike. -/
theorem RankingObjective.SameQuery.alike [Mul K] {b₁ b₂ : RankingObjective K} {score₁ score₂ : ℕ → K}
    {q : ℕ} (h : b₁.SameQuery b₂ score₁ score₂ q) : (b₁.query score₁ q).Alike (b₂.query score₂ q) :=
  ⟨rfl, h.cnt, h.label, h.score⟩

/-- Two calls, over two layouts of the queries and two schedules, leave the same values on the
slices of a query `q` with the same data in both, when the routine's outputs for `q` agree from
any two states that the steps of the other queries keep in `I₁` and `I₂`. -/
theorem getGradients_slice_congr [Mul K] {b₁ b₂ : RankingObjective K} {oneQuery : OneQuery K σ}
    (hF : Frames oneQuery) (hb₁ : b₁.Partitions) (hb₂ : b₂.Partitions) {score₁ score₂ : ℕ → K}
    {q : ℕ} (hq : b₁.SameQuery b₂ score₁ score₂ q) (I₁ I₂ : σ → Prop)
    (hI₁ : ∀ s tid j lam hess, j ≠ q → I₁ s → I₁ (oneQuery s tid (b₁.query score₁ j) lam hess).state)
    (hI₂ : ∀ s tid j lam hess, j ≠ q → I₂ s → I₂ (oneQuery s tid (b₂.query score₂ j) lam hess).state)
    (hout : ∀ s₁ s₂ tid₁ tid₂ lam₁ hess₁ lam₂ hess₂, I₁ s₁ → I₂ s₂ → ∀ d < b₁.cnt q,
      (oneQuery s₁ tid₁ (b₁.query score₁ q) lam₁ hess₁).gradients d =
          (oneQuery s₂ tid₂ (b₂.query score₂ q) lam₂ hess₂).gradients d ∧
        (oneQuery s₁ tid₁ (b₁.query score₁ q) lam₁ hess₁).hessians d =
          (oneQuery s₂ tid₂ (b₂.query score₂ q) lam₂ hess₂).hessians d)
    {t₁ t₂ : ℕ} {schedule₁ schedule₂ : List (ℕ × ℕ)} (hs₁ : IsSchedule b₁.numQueries t₁ schedule₁)
    (hs₂ : IsSchedule b₂.numQueries t₂ schedule₂) (acc₁ acc₂ : GradientBuffers K σ)
    (h₁ : I₁ acc₁.state) (h₂ : I₂ acc₂.state) {d : ℕ} (hd : d < b₁.cnt q) :
    (b₁.getGradients oneQuery score₁ schedule₁ acc₁).gradients (b₁.start q + d) =
        (b₂.getGradients oneQuery score₂ schedule₂ acc₂).gradients (b₂.start q + d) ∧
      (b₁.getGradients oneQuery score₁ schedule₁ acc₁).hessians (b₁.start q + d) =
        (b₂.getGradients oneQuery score₂ schedule₂ acc₂).hessians (b₂.start q + d) := by
  have hd₂ : d < b₂.cnt q := hq.cnt ▸ hd
  obtain ⟨s₁, hI₁s, tid₁, lam₁, hess₁, g₁, e₁⟩ := b₁.getGradients_of_inSlice_inv score₁ hF hb₁
    hq.lt₁ (x := b₁.start q + d) ⟨by omega, by omega⟩ I₁ hI₁ schedule₁ acc₁
    (fun _ ↦ hs₁.fst_lt) hs₁.nodup (hs₁.mem_iff.mpr hq.lt₁) h₁
  obtain ⟨s₂, hI₂s, tid₂, lam₂, hess₂, g₂, e₂⟩ := b₂.getGradients_of_inSlice_inv score₂ hF hb₂
    hq.lt₂ (x := b₂.start q + d) ⟨by omega, by omega⟩ I₂ hI₂ schedule₂ acc₂
    (fun _ ↦ hs₂.fst_lt) hs₂.nodup (hs₂.mem_iff.mpr hq.lt₂) h₂
  obtain ⟨og, oh⟩ := hout s₁ s₂ tid₁ tid₂ lam₁ hess₁ lam₂ hess₂ hI₁s hI₂s d hd
  rw [g₁, g₂, e₁, e₂, Nat.add_sub_cancel_left, Nat.add_sub_cancel_left, hq.weight d hd,
    hq.weight d hd, og, oh]
  exact ⟨rfl, rfl⟩

end RankObjective
