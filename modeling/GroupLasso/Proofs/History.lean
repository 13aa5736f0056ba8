import GroupLasso.Proofs.Run

/-!
What a history of calls leaves behind. However a path was run and marked since it was built, its
predictor is that of its solution, and its gradient is that of loss and ridge term at the solution
and the Lagrange value that was committed last.
-/

namespace GroupLasso

open Scalar

namespace Path

/-- The calls on a path since it was built, with the events that they caused. -/
inductive History : Path ℝ → List (Event ℝ) → Path ℝ → Prop where
  | build {loss : Loss ℝ} {design : Design ℝ} {l1 l2 : Array ℝ} {ridgeParameter : Option (Mat ℝ)}
      {options : PathOptions ℝ} {path : Path ℝ} :
      Path.build loss design l1 l2 ridgeParameter options = .ok path → History path [] path
  | fit {start path : Path ℝ} {events : List (Event ℝ)} (given : Option (List ℝ)) :
      History start events path → History start (events ++ path.fitEvents given) (path.fit given).2
  | markEverActive {start path : Path ℝ} {events : List (Event ℝ)} (groups : List Nat) :
      History start events path →
      History start (events ++ [.mark groups]) (path.markEverActive groups)

def lastCommitted (events : List (Event ℝ)) : Option ℝ := (commits events).getLast?

section
variable {start path : Path ℝ} {events : List (Event ℝ)}

theorem History.trace (history : History start events path) : Trace start events path := by
  induction history with
  | build _ => exact .done _
  | fit given _ ih => exact ih.append (fit_trace _ given)
  | markEverActive groups _ ih => exact ih.append (.single (.mark groups))

theorem History.built (history : History start events path) :
    ∃ loss design l1 l2 ridgeParameter options,
      Path.build loss design l1 l2 ridgeParameter options = .ok start := by
  induction history with
  | build built => exact ⟨_, _, _, _, _, _, built⟩
  | fit _ _ ih => exact ih
  | markEverActive _ _ ih => exact ih

theorem Reachable.history (reachable : Reachable path) :
    ∃ start events, History start events path := by
  induction reachable with
  | build built => exact ⟨_, [], .build built⟩
  | fit given _ ih =>
      obtain ⟨start, events, history⟩ := ih
      exact ⟨start, _, history.fit given⟩
  | markEverActive groups _ ih =>
      obtain ⟨start, events, history⟩ := ih
      exact ⟨start, _, history.markEverActive groups⟩

/-! The ridge term of the penalized groups is scaled by the Lagrange value, that of the others is not. -/

theorem contains_penalizedMask {penalty : Penalty ℝ} {group : Nat} :
    penalty.penalizedMask.contains group = true ↔
      group < penalty.groups ∧ penalty.isUnpenalized group = false := by
  by_cases bound : group < penalty.groups <;> simp [Penalty.penalizedMask, Mask.contains, bound]

theorem ridgeDiag_unpenalized {group : Nat} (unpenalized : path.penalty.isUnpenalized group = true)
    (col : Nat) (first second : ℝ) :
    (path.ridgeDiag first).get group col = (path.ridgeDiag second).get group col := by
  have unscaled : path.penalty.penalizedMask.contains group = false := by
    rw [Bool.eq_false_iff, ne_eq, contains_penalizedMask, unpenalized]
    simp
  by_cases inside : group < path.ridgeParameter.rows ∧ col < path.ridgeParameter.cols
  · unfold ridgeDiag Restriction.ridgeDiag
    rw [Mat.get_ofFn _ inside.1 inside.2, Mat.get_ofFn _ inside.1 inside.2, unscaled]
    rfl
  · have outside : path.ridgeParameter.rows ≤ group ∨ path.ridgeParameter.cols ≤ col := by omega
    have at_lagrange : ∀ lagrange, (path.ridgeDiag lagrange).get group col = 0 :=
      fun _ => Mat.get_eq_zero outside
    rw [at_lagrange, at_lagrange]

theorem ridgeGradient_of_null {solution : Mat ℝ}
    (support : ∀ group, path.penalty.isUnpenalized group = false → ∀ col, solution.get group col = 0)
    (first second : ℝ) :
    path.ridgeGradient solution first = path.ridgeGradient solution second := by
  unfold ridgeGradient
  split_ifs
  · rfl
  · refine Mat.ext_get rfl rfl ?_
    intro group _ col _
    rw [Mat.get_scaleEntries, Mat.get_scaleEntries]
    cases unpenalized : path.penalty.isUnpenalized group with
    | true => rw [ridgeDiag_unpenalized unpenalized col first second]
    | false => rw [support group unpenalized, mul_zero, mul_zero]

/-- The predictor and the gradient are those of the solution, the gradient at the Lagrange value that
was committed last, or at any value when there was none. -/
structure Coherent (path : Path ℝ) (committed : Option ℝ) : Prop where
  predictor : path.predictor = path.design.dot path.solution
  gradient : ∀ lagrange, committed = none ∨ committed = some lagrange →
    path.gradient = (path.fullGradient path.predictor).add (path.ridgeGradient path.solution lagrange)

theorem Fresh.coherent (fresh : Fresh path) : path.Coherent none := by
  refine ⟨fresh.predictor, fun lagrange _ => ?_⟩
  rw [fresh.gradient, ridgeGradient_of_null fresh.support 1 lagrange]

theorem Coherent.apply {committed : Option ℝ} {event : Event ℝ} (wellFormed : path.WellFormed)
    (coherent : path.Coherent committed) (permitted : path.Permits event) :
    (path.apply event).Coherent (event.committed?.or committed) := by
  cases permitted with
  | solve options positive => exact coherent
  | mark groups => exact ⟨coherent.predictor, coherent.gradient⟩
  | record entry => exact ⟨coherent.predictor, coherent.gradient⟩
  | @commit lagrange options trial positive tried passed =>
      have nonneg : 0 ≤ lagrange := positive.2.le
      obtain ⟨-, gradient, -⟩ := trial_gradient wellFormed nonneg tried
      have predictor := trial_predictor wellFormed nonneg tried
      refine ⟨predictor, ?_⟩
      rintro _ (none | same)
      · cases none
      · cases same
        change trial.gradient = (path.fullGradient trial.sub.predictor).add _
        rw [predictor, gradient]
        rfl

theorem lastCommitted_cons (event : Event ℝ) (events : List (Event ℝ)) :
    lastCommitted (event :: events) = (lastCommitted events).or event.committed? := by
  unfold lastCommitted commits
  cases committed : event.committed? with
  | none => rw [List.filterMap_cons_none committed, Option.or_none]
  | some lagrange =>
      rw [List.filterMap_cons_some committed, List.getLast?_cons]
      cases (events.filterMap Event.committed?).getLast? <;> rfl

theorem Trace.sinceCommit {reached : Path ℝ} {motive : Path ℝ → Option ℝ → Prop}
    (step : ∀ path event committed, path.WellFormed → motive path committed →
      path.Permits event → motive (path.apply event) (event.committed?.or committed))
    (wellFormed : path.WellFormed) (trace : Trace path events reached) (committed : Option ℝ)
    (holds : motive path committed) : motive reached ((lastCommitted events).or committed) := by
  induction trace generalizing committed with
  | done path => exact holds
  | @next path reached event events permitted _ ih =>
      have later := ih ((sameModel_apply path event).wellFormed wellFormed) _
        (step path event committed wellFormed holds permitted)
      rwa [← Option.or_assoc, ← lastCommitted_cons] at later

theorem Trace.coherent {reached : Path ℝ} {committed : Option ℝ} (wellFormed : path.WellFormed)
    (trace : Trace path events reached) (coherent : path.Coherent committed) :
    reached.Coherent ((lastCommitted events).or committed) :=
  trace.sinceCommit (fun _ _ _ wellFormed coherent permitted => coherent.apply wellFormed permitted)
    wellFormed committed coherent

/-- After any history of runs, also failed ones, and of marked groups, the predictor is that of the
solution, and the gradient is that of loss and ridge term at the solution and the Lagrange value that
was committed last, or at every Lagrange value when nothing was committed. -/
theorem history_coherent (history : History start events path) :
    path.predictor = path.design.dot path.solution ∧
      (∀ lagrange, lastCommitted events = some lagrange → path.gradient =
        (path.fullGradient path.predictor).add (path.ridgeGradient path.solution lagrange)) ∧
      (lastCommitted events = none → ∀ lagrange, path.gradient =
        (path.fullGradient path.predictor).add (path.ridgeGradient path.solution lagrange)) := by
  obtain ⟨_, _, _, _, _, _, built⟩ := history.built
  have fresh := build_fresh built
  have coherent := history.trace.coherent fresh.wellFormed fresh.coherent
  rw [Option.or_none] at coherent
  exact ⟨coherent.predictor, fun lagrange last => coherent.gradient lagrange (.inr last),
    fun none lagrange => coherent.gradient lagrange (.inl none)⟩

theorem history_coherent_unit :
    let path : Path ℝ := (unitPath 0).markEverActive [0]
    let events := [] ++ [.mark [0]] ++ path.fitEvents (some [1 / 2])
    let reached := (path.fit (some [1 / 2])).2
    History (unitPath 0) events reached ∧ lastCommitted events = some (1 / 2) ∧
      reached.predictor = reached.design.dot reached.solution ∧
      reached.gradient = (reached.fullGradient reached.predictor).add
        (reached.ridgeGradient reached.solution (1 / 2)) := by
  intro path events reached
  have history : History (unitPath 0) events reached :=
    ((History.build (build_unit 0)).markEverActive [0]).fit _
  obtain ⟨trial, run, -⟩ := unit_fit_marked one_half_pos one_half_lt_one
  have last : lastCommitted events = some (1 / 2) := by
    have commits : commits (path.fitEvents (some [1 / 2])) = [1 / 2] := commits_fit path [1 / 2] run
    rw [lastCommitted, commits_append, commits]
    rfl
  obtain ⟨predictor, gradient, -⟩ := history_coherent history
  exact ⟨history, last, predictor, gradient _ last⟩

end

end Path

end GroupLasso
