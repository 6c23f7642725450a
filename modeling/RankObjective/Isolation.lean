import RankObjective.Lambdarank.Ranked
import RankObjective.Xendcg

/-!
# What the slice of a query depends on

Both routines overwrite their query's slice without reading it, so one call leaves on the
documents values that do not depend on what the output arrays held.  Across calls and runs, the
values a call writes on the slice of query `q` depend only on `q`'s own data in that call: the
routine reads nothing of the other queries, the steps of the other queries leave what it reads of
the object alone, and the slices are disjoint.  For `RankXENDCG` what it reads of the object is
the generator `rands_[q]`, seeded `seed_ + q` and advanced by `q`'s own calls only; for
`LambdarankNDCG` without `unbiased_` it is the object as construction built it.

The document weights only scale: since a routine that overwrites its slice reads nothing of what
the arrays held, the weighting loop of `GetGradients` multiplies each document's value by its
weight and changes nothing else, neither the other documents nor the object.
-/

namespace RankObjective

variable {K G : Type} [LinearOrderedField K] [FloorRing K]

/-- One call of `GetGradients` with either objective, over query boundaries that partition the
documents and a loop that runs every query once, leaves on `[0, num_data_)` values, and an
object, that do not depend on what the gradient and hessian arrays held before.  For
`LambdarankNDCG` the schedules range over teams of any size, as the model's buffers have a row for
every thread; the code has `num_threads_` rows, and with `lambdarank_unbiased` on a thread from
`num_threads_` on writes past them, so for the code the statement speaks of teams of at most
`num_threads_` threads, or of `lambdarank_unbiased` off. -/
theorem getGradients_independent_of_prior_buffers (L : Libm K) (kMinScore : K) (R : Random K G) :
    (∀ (o : LambdarankNDCG K) (teamSize : ℕ) (schedule : List (ℕ × ℕ)),
      o.Partitions → IsSchedule o.numQueries teamSize schedule →
      ∀ (score g₁ h₁ g₂ h₂ : ℕ → K),
        (o.getGradients L kMinScore score schedule g₁ h₁).state =
            (o.getGradients L kMinScore score schedule g₂ h₂).state ∧
          ∀ x < o.numData,
            (o.getGradients L kMinScore score schedule g₁ h₁).gradients x =
                (o.getGradients L kMinScore score schedule g₂ h₂).gradients x ∧
              (o.getGradients L kMinScore score schedule g₁ h₁).hessians x =
                (o.getGradients L kMinScore score schedule g₂ h₂).hessians x) ∧
    (∀ (o : RankXENDCG K G) (teamSize : ℕ) (schedule : List (ℕ × ℕ)),
      o.Partitions → IsSchedule o.numQueries teamSize schedule →
      ∀ (score g₁ h₁ g₂ h₂ : ℕ → K),
        (o.getGradients L R score schedule g₁ h₁).state =
            (o.getGradients L R score schedule g₂ h₂).state ∧
          ∀ x < o.numData,
            (o.getGradients L R score schedule g₁ h₁).gradients x =
                (o.getGradients L R score schedule g₂ h₂).gradients x ∧
              (o.getGradients L R score schedule g₁ h₁).hessians x =
                (o.getGradients L R score schedule g₂ h₂).hessians x) := by
  refine ⟨fun o _ schedule hb hs score g₁ h₁ g₂ h₂ ↦ ?_, fun o _ schedule hb hs score g₁ h₁ g₂ h₂ ↦
    o.toRankingObjective.getGradients_agree_of_overwrites score (xendcgOneQuery_frames L R)
      (xendcgOneQuery_overwrites L R) hb (fun _ ↦ hs.exists_mem) g₁ h₁ g₂ h₂ o⟩
  obtain ⟨-, hag⟩ := o.toRankingObjective.getGradients_agree_of_overwrites score
    (lambdarankOneQuery_frames L kMinScore) (lambdarankOneQuery_overwrites L kMinScore) hb
    (fun _ ↦ hs.exists_mem) g₁ h₁ g₂ h₂ o
  refine ⟨by rw [getGradients_state, getGradients_state], fun x hx ↦ ?_⟩
  simp only [LambdarankNDCG.getGradients_gradients, LambdarankNDCG.getGradients_hessians]
  exact hag x hx

theorem getGradients_independent_of_prior_buffers_witness :
    let o := initPositionBiasesAndGradients (LambdarankNDCG.ofBase Libm.real
      ⟨0, 1, false, 3, true, 1, [0, 1, 3]⟩ none ⟨0, 1, 3, fun d ↦ [1, 2, 0].getD d 0, none, (3 * ·)⟩)
    let x : RankXENDCG ℝ ℕ := ⟨o.toRankingObjective, fun _ ↦ 0⟩
    let R : Random ℝ ℕ := ⟨fun _ ↦ 0, fun n ↦ (1 / 2, n + 1)⟩
    let score : ℕ → ℝ := fun d ↦ [100, 50, 0].getD d 0
    o.Partitions ∧ IsSchedule o.numQueries 1 [(0, 0)] ∧
      (o.getGradients Libm.real (-1) score [(0, 0)] (fun _ ↦ 1) (fun _ ↦ 1)).gradients 2 =
        (o.getGradients Libm.real (-1) score [(0, 0)] (fun _ ↦ 0) (fun _ ↦ 0)).gradients 2 ∧
      (x.getGradients Libm.real R score [(0, 0)] (fun _ ↦ 1) (fun _ ↦ 1)).gradients 2 =
        (x.getGradients Libm.real R score [(0, 0)] (fun _ ↦ 0) (fun _ ↦ 0)).gradients 2 := by
  intro o x R score
  have hb : o.Partitions := ⟨rfl, rfl, fun q _ ↦ show 3 * q ≤ 3 * (q + 1) by omega⟩
  have hs : IsSchedule o.numQueries 1 [(0, 0)] := ⟨List.Perm.refl _, by decide⟩
  have h := getGradients_independent_of_prior_buffers Libm.real (-1) R
  exact ⟨hb, hs, ((h.1 o 1 _ hb hs score _ _ _ _).2 2 (by decide)).1,
    ((h.2 x 1 _ hb hs score _ _ _ _).2 2 (by decide)).1⟩

/-- Over any run, the values a call writes on the slice of query `q` depend only on `q`'s own size,
labels, weights and scores in that call, and for `RankXENDCG` on the seed, `q` and the number of
calls before it: not on the other queries, nor on how the loops spread the queries over threads.
For `LambdarankNDCG` this holds without `unbiased_`, for a query of at most `truncation_level_`
documents, after any numbers of calls. -/
theorem getGradients_slice_isolated (L : Libm K) (kMinScore : K) (R : Random K G) :
    (∀ {seed : ℤ} {t₁ t₂ k q : ℕ} {o₁ o₂ : RankXENDCG K G} {score₁ score₂ : ℕ → K}
        {schedule₁ schedule₂ : List (ℕ × ℕ)},
      RankXENDCG.Run L R seed t₁ k o₁ → RankXENDCG.Run L R seed t₂ k o₂ →
      o₁.Partitions → o₂.Partitions → o₁.SameQuery o₂.toRankingObjective score₁ score₂ q →
      IsSchedule o₁.numQueries t₁ schedule₁ → IsSchedule o₂.numQueries t₂ schedule₂ →
      ∀ (g₁ h₁ g₂ h₂ : ℕ → K), ∀ d < o₁.cnt q,
        (o₁.getGradients L R score₁ schedule₁ g₁ h₁).gradients (o₁.start q + d) =
            (o₂.getGradients L R score₂ schedule₂ g₂ h₂).gradients (o₂.start q + d) ∧
          (o₁.getGradients L R score₁ schedule₁ g₁ h₁).hessians (o₁.start q + d) =
            (o₂.getGradients L R score₂ schedule₂ g₂ h₂).hessians (o₂.start q + d)) ∧
    (∀ {config : Config K} {t₁ t₂ k₁ k₂ q : ℕ} {o₁ o₂ : LambdarankNDCG K} {score₁ score₂ : ℕ → K}
        {schedule₁ schedule₂ : List (ℕ × ℕ)},
      config.lambdarankUnbiased = false →
      LambdarankNDCG.Run L kMinScore config t₁ k₁ o₁ →
      LambdarankNDCG.Run L kMinScore config t₂ k₂ o₂ →
      o₁.Partitions → o₂.Partitions → o₁.SameQuery o₂.toRankingObjective score₁ score₂ q →
      o₁.cnt q ≤ config.lambdarankTruncationLevel →
      IsSchedule o₁.numQueries t₁ schedule₁ → IsSchedule o₂.numQueries t₂ schedule₂ →
      ∀ (g₁ h₁ g₂ h₂ : ℕ → K), ∀ d < o₁.cnt q,
        (o₁.getGradients L kMinScore score₁ schedule₁ g₁ h₁).gradients (o₁.start q + d) =
            (o₂.getGradients L kMinScore score₂ schedule₂ g₂ h₂).gradients (o₂.start q + d) ∧
          (o₁.getGradients L kMinScore score₁ schedule₁ g₁ h₁).hessians (o₁.start q + d) =
            (o₂.getGradients L kMinScore score₂ schedule₂ g₂ h₂).hessians (o₂.start q + d)) := by
  constructor
  · intro seed t₁ t₂ k q o₁ o₂ score₁ score₂ schedule₁ schedule₂ hr₁ hr₂ hb₁ hb₂ hq hs₁ hs₂
      g₁ h₁ g₂ h₂ d hd
    have hg : o₁.rands q = o₂.rands q := by
      rw [RankXENDCG.run_rands L R hr₁ q hq.lt₁, RankXENDCG.run_rands L R hr₂ q hq.lt₂, hq.cnt]
    exact getGradients_slice_congr (xendcgOneQuery_frames L R) hb₁ hb₂ hq
      (fun s ↦ s.rands q = o₁.rands q) (fun s ↦ s.rands q = o₂.rands q)
      (fun s tid _ lam hess hj h ↦ (xendcgOneQuery_rands_of_ne L R s tid _ lam hess hj.symm).trans h)
      (fun s tid _ lam hess hj h ↦ (xendcgOneQuery_rands_of_ne L R s tid _ lam hess hj.symm).trans h)
      (fun s₁ s₂ tid₁ tid₂ lam₁ hess₁ lam₂ hess₂ e₁ e₂ ↦
        xendcgOneQuery_congr L R hq.alike (by simp [e₁, e₂, hg]) tid₁ tid₂ lam₁ hess₁ lam₂ hess₂)
      hs₁ hs₂ ⟨g₁, h₁, o₁⟩ ⟨g₂, h₂, o₂⟩ rfl rfl hd
  · intro config t₁ t₂ k₁ k₂ q o₁ o₂ score₁ score₂ schedule₁ schedule₂ hu hr₁ hr₂ hb₁ hb₂ hq hT
      hs₁ hs₂ g₁ h₁ g₂ h₂ d hd
    obtain ⟨_, _, _, hc₁⟩ := LambdarankNDCG.run_created L kMinScore hu hr₁
    obtain ⟨_, _, _, hc₂⟩ := LambdarankNDCG.run_created L kMinScore hu hr₂
    have ho := alikeFor_of_create L hc₁ hc₂ hq.cnt hq.label hT
    have hu₁ := (create_unbiased L hc₁).trans hu
    have hu₂ := (create_unbiased L hc₂).trans hu
    simp only [LambdarankNDCG.getGradients_gradients, LambdarankNDCG.getGradients_hessians]
    exact getGradients_slice_congr (lambdarankOneQuery_frames L kMinScore) hb₁ hb₂ hq
      (fun s ↦ s = o₁) (fun s ↦ s = o₂)
      (fun _ tid _ lam hess _ h ↦ by
        subst h; exact lambdarankOneQuery_state_of_not_unbiased L kMinScore hu₁ tid _ lam hess)
      (fun _ tid _ lam hess _ h ↦ by
        subst h; exact lambdarankOneQuery_state_of_not_unbiased L kMinScore hu₂ tid _ lam hess)
      (fun s₁ s₂ tid₁ tid₂ lam₁ hess₁ lam₂ hess₂ e₁ e₂ ↦ by
        subst e₁ e₂
        exact lambdarankOneQuery_congr L kMinScore ho hq.alike tid₁ tid₂ lam₁ hess₁ lam₂ hess₂)
      hs₁ hs₂ _ _ rfl rfl hd

theorem getGradients_slice_isolated_witness :
    let R : Random ℝ ℕ := ⟨fun _ ↦ 0, fun n ↦ (1 / 2, n + 1)⟩
    let c : Config ℝ := ⟨0, 1, false, 3, false, 1, [0, 1, 3]⟩
    let m₁ : Metadata ℝ := ⟨fun d ↦ [1, 0].getD d 0, none, some fun i ↦ [0, 2].getD i 2, 1⟩
    let m₂ : Metadata ℝ :=
      ⟨fun d ↦ [1, 0, 2, 1, 0].getD d 0, none, some fun i ↦ [0, 2, 5].getD i 5, 2⟩
    let b₁ : RankingObjective ℝ := ⟨0, 1, 2, m₁.label, none, fun i ↦ [0, 2].getD i 2⟩
    let b₂ : RankingObjective ℝ := ⟨0, 2, 5, m₂.label, none, fun i ↦ [0, 2, 5].getD i 5⟩
    let x₁ : RankXENDCG ℝ ℕ := ⟨b₁, fun i ↦ R.ofSeed (0 + i)⟩
    let x₂ : RankXENDCG ℝ ℕ := ⟨b₂, fun i ↦ R.ofSeed (0 + i)⟩
    let o₁ := initPositionBiasesAndGradients (LambdarankNDCG.ofBase Libm.real c none b₁)
    let o₂ := initPositionBiasesAndGradients (LambdarankNDCG.ofBase Libm.real c none b₂)
    let score₁ : ℕ → ℝ := fun d ↦ [2, 1].getD d 0
    let score₂ : ℕ → ℝ := fun d ↦ [2, 1, 7, 7, 7].getD d 0
    RankXENDCG.Run Libm.real R 0 1 0 x₁ ∧ RankXENDCG.Run Libm.real R 0 2 0 x₂ ∧
      LambdarankNDCG.Run Libm.real (-1) c 1 0 o₁ ∧ LambdarankNDCG.Run Libm.real (-1) c 2 0 o₂ ∧
      b₁.Partitions ∧ b₂.Partitions ∧ b₁.SameQuery b₂ score₁ score₂ 0 ∧
      IsSchedule 1 1 [(0, 0)] ∧ IsSchedule 2 2 [(1, 0), (0, 1)] ∧
      (x₁.getGradients Libm.real R score₁ [(0, 0)] (fun _ ↦ 0) (fun _ ↦ 0)).gradients 0 =
        (x₂.getGradients Libm.real R score₂ [(1, 0), (0, 1)] (fun _ ↦ 0) (fun _ ↦ 0)).gradients 0 ∧
      (o₁.getGradients Libm.real (-1) score₁ [(0, 0)] (fun _ ↦ 0) (fun _ ↦ 0)).gradients 0 =
        (o₂.getGradients Libm.real (-1) score₂ [(1, 0), (0, 1)] (fun _ ↦ 0) (fun _ ↦ 0)).gradients 0 := by
  intro R c m₁ m₂ b₁ b₂ x₁ x₂ o₁ o₂ score₁ score₂
  have hx₁ : RankXENDCG.Run Libm.real R 0 1 0 x₁ := .built ⟨m₁, 2, rfl⟩
  have hx₂ : RankXENDCG.Run Libm.real R 0 2 0 x₂ := .built ⟨m₂, 5, rfl⟩
  have ho₁ : LambdarankNDCG.Run Libm.real (-1) c 1 0 o₁ :=
    .built ⟨none, m₁, 2, create_eq_ok_of one_pos rfl (by simp [checkLabel, List.range_succ, m₁])⟩
  have ho₂ : LambdarankNDCG.Run Libm.real (-1) c 2 0 o₂ :=
    .built ⟨none, m₂, 5, create_eq_ok_of one_pos rfl (by simp [checkLabel, List.range_succ, m₂])⟩
  have hb₁ : b₁.Partitions := ⟨rfl, rfl, fun q hq ↦ by interval_cases q; decide⟩
  have hb₂ : b₂.Partitions := ⟨rfl, rfl, fun q hq ↦ by interval_cases q <;> decide⟩
  have hq : b₁.SameQuery b₂ score₁ score₂ 0 := by
    refine ⟨by decide, by decide, rfl, fun d hd ↦ ?_, fun _ _ _ ↦ rfl, fun d hd ↦ ?_⟩ <;>
    · have hd : d < 2 := hd
      interval_cases d <;> rfl
  have hs₁ : IsSchedule 1 1 [(0, 0)] := ⟨List.Perm.refl _, by decide⟩
  have hs₂ : IsSchedule 2 2 [(1, 0), (0, 1)] := ⟨List.Perm.swap 0 1 [], by decide⟩
  have h := getGradients_slice_isolated Libm.real (-1) R
  exact ⟨hx₁, hx₂, ho₁, ho₂, hb₁, hb₂, hq, hs₁, hs₂,
    (h.1 hx₁ hx₂ hb₁ hb₂ hq hs₁ hs₂ _ _ _ _ 0 (by decide)).1,
    (h.2 rfl ho₁ ho₂ hb₁ hb₂ hq (by decide) hs₁ hs₂ _ _ _ _ 0 (by decide)).1⟩

section Weights

variable {α σ : Type} (b : RankingObjective α)

namespace RankingObjective

@[simp] theorem start_withWeights (ω : Option (ℕ → α)) : ({ b with weights := ω }).start = b.start :=
  rfl

@[simp] theorem cnt_withWeights (ω : Option (ℕ → α)) : ({ b with weights := ω }).cnt = b.cnt := rfl

@[simp] theorem inSlice_withWeights (ω : Option (ℕ → α)) :
    ({ b with weights := ω }).InSlice = b.InSlice := rfl

@[simp] theorem query_withWeights (ω : Option (ℕ → α)) (score : ℕ → α) :
    ({ b with weights := ω }).query score = b.query score := rfl

end RankingObjective

variable [Mul α] (w : ℕ → α)

namespace RankingObjective

/-- An accumulator of the call with weights `w` against one of the call without weights, once the
queries of `done` have run: the same object, `w[x]` times the value on the slices of `done`, and
the same value elsewhere. -/
def WeighedAfter (done : List ℕ) (acc₁ acc₀ : GradientBuffers α σ) : Prop :=
  acc₁.state = acc₀.state ∧ ∀ x,
    acc₁.gradients x =
        (if ∃ i ∈ done, b.InSlice i x then acc₀.gradients x * w x else acc₀.gradients x) ∧
      acc₁.hessians x =
        (if ∃ i ∈ done, b.InSlice i x then acc₀.hessians x * w x else acc₀.hessians x)

theorem WeighedAfter.congr {done done' : List ℕ} (h : ∀ i, i ∈ done ↔ i ∈ done')
    {acc₁ acc₀ : GradientBuffers α σ} (ha : b.WeighedAfter w done acc₁ acc₀) :
    b.WeighedAfter w done' acc₁ acc₀ := by
  simpa only [WeighedAfter, h] using ha

variable {oneQuery : OneQuery α σ} (score : ℕ → α)

/-- One step of each call keeps them related, with the step's query added to `done`. -/
theorem queryStep_weighedAfter (hF : Frames oneQuery) (hO : Overwrites oneQuery)
    {done : List ℕ} {acc₁ acc₀ : GradientBuffers α σ} (h : b.WeighedAfter w done acc₁ acc₀)
    (i tid : ℕ) :
    b.WeighedAfter w (i :: done) ({ b with weights := some w }.queryStep oneQuery score acc₁ i tid)
      ({ b with weights := none }.queryStep oneQuery score acc₀ i tid) := by
  obtain ⟨hs, hv⟩ := h
  obtain ⟨hst, hd⟩ := hO acc₀.state tid (b.query score i) (shiftBy acc₁.gradients (b.start i))
    (shiftBy acc₁.hessians (b.start i)) (shiftBy acc₀.gradients (b.start i))
    (shiftBy acc₀.hessians (b.start i))
  refine ⟨by simpa only [queryStep_state, start_withWeights, query_withWeights, hs] using hst,
    fun x ↦ ?_⟩
  obtain ⟨-, g₁, h₁⟩ := { b with weights := some w }.queryStep_apply score hF acc₁ i tid x
  obtain ⟨-, g₀, h₀⟩ := { b with weights := none }.queryStep_apply score hF acc₀ i tid x
  simp only [start_withWeights, inSlice_withWeights, query_withWeights, hs] at g₁ h₁ g₀ h₀
  rw [g₁, h₁, g₀, h₀]
  by_cases hx : b.InSlice i x
  · -- the step's own slice: the weighting loop multiplies the routine's value by `w[x]`
    obtain ⟨hdg, hdh⟩ := hd (x - b.start i) (Nat.sub_lt_left_of_lt_add hx.1 hx.2)
    simp only [if_pos hx, weighAt, hdg, hdh, if_pos (⟨i, List.mem_cons_self i done, hx⟩ :
      ∃ j ∈ i :: done, b.InSlice j x), and_self]
  · have hm : (∃ j ∈ i :: done, b.InSlice j x) ↔ ∃ j ∈ done, b.InSlice j x := by
      simp only [List.mem_cons, exists_eq_or_imp, hx, false_or]
    simpa only [if_neg hx, hm] using hv x

/-- Along a schedule, the call with weights `w` keeps `w[x]` times the values of the call without
weights on the slices of the queries it runs. -/
theorem getGradients_weighedAfter (hF : Frames oneQuery) (hO : Overwrites oneQuery) :
    ∀ (schedule : List (ℕ × ℕ)) (done : List ℕ) (acc₁ acc₀ : GradientBuffers α σ),
      b.WeighedAfter w done acc₁ acc₀ →
        b.WeighedAfter w (schedule.map Prod.fst ++ done)
          ({ b with weights := some w }.getGradients oneQuery score schedule acc₁)
          ({ b with weights := none }.getGradients oneQuery score schedule acc₀)
  | [], _, _, _, h => h
  | p :: schedule, done, _, _, h =>
    (getGradients_weighedAfter hF hO schedule (p.1 :: done) _ _
      (b.queryStep_weighedAfter w score hF hO h p.1 p.2)).congr b w fun i ↦ by
        simp only [List.map_cons, List.cons_append, List.mem_append, List.mem_cons]
        tauto

end RankingObjective

/-- The weights of `GetGradients` only scale what the routine writes: with weights `w` a call
writes `w[x]` times what the call without weights writes on the slice of every query its loop
runs, the same value on every other document, and leaves the same object, for a routine that
writes only its slice and overwrites it without reading it, as both objectives' routines do
(`lambdarankOneQuery_frames`, `xendcgOneQuery_overwrites`). -/
theorem getGradients_weights_scale {oneQuery : OneQuery α σ} (hF : Frames oneQuery)
    (hO : Overwrites oneQuery) (score : ℕ → α) (schedule : List (ℕ × ℕ))
    (acc : GradientBuffers α σ) :
    let r := { b with weights := some w }.getGradients oneQuery score schedule acc
    let r₀ := { b with weights := none }.getGradients oneQuery score schedule acc
    r.state = r₀.state ∧ ∀ x,
      r.gradients x =
          (if ∃ p ∈ schedule, b.InSlice p.1 x then r₀.gradients x * w x else r₀.gradients x) ∧
        r.hessians x =
          (if ∃ p ∈ schedule, b.InSlice p.1 x then r₀.hessians x * w x else r₀.hessians x) := by
  have h := b.getGradients_weighedAfter w score hF hO schedule [] acc acc
    ⟨rfl, fun x ↦ by simp only [List.not_mem_nil, false_and, exists_false, if_false, and_self]⟩
  simpa only [RankingObjective.WeighedAfter, List.append_nil, List.mem_map, exists_exists_and_eq_and]
    using h

end Weights

/-- One query of two documents run by `LambdarankNDCG`'s routine, with weights `[2, 3]`. -/
theorem getGradients_weights_scale_pair :
    let b : RankingObjective ℝ := ⟨0, 1, 2, fun d ↦ [1, 0].getD d 0, none, fun i ↦ [0, 2].getD i 2⟩
    let o := initPositionBiasesAndGradients
      (LambdarankNDCG.ofBase Libm.real ⟨0, 1, false, 3, false, 1, [0, 1, 3]⟩ none b)
    let score : ℕ → ℝ := fun d ↦ [2, 1].getD d 0
    let r := { b with weights := some fun d ↦ [2, 3].getD d 0 }.getGradients
      (lambdarankOneQuery Libm.real (-1)) score [(0, 0)] ⟨fun _ ↦ 0, fun _ ↦ 0, o⟩
    let r₀ := { b with weights := none }.getGradients
      (lambdarankOneQuery Libm.real (-1)) score [(0, 0)] ⟨fun _ ↦ 0, fun _ ↦ 0, o⟩
    r.state = r₀.state :=
  (getGradients_weights_scale _ _ (lambdarankOneQuery_frames Libm.real (-1))
    (lambdarankOneQuery_overwrites Libm.real (-1)) _ _ _).1

end RankObjective
