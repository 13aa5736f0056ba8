import GroupLasso.Scalar.Binary64
import GroupLasso.Proofs.Visits

/-!
Subsamples of a path. They are built from the weights as the path has them, mixed, and from its ridge
parameter, whatever was run on it; and they come to the path that is built over the same cases from the
weights and the parameter that were given at first, but for the share that mixes weights, which they
have no more use for.
-/

namespace GroupLasso

open Scalar Failure

def PathOptions.unmixed {α : Type} (options : PathOptions α) : PathOptions α :=
  { options with l1Share := none }

namespace Path

def unmixed {α : Type} (path : Path α) : Path α := { path with options := path.options.unmixed }

variable {α : Type} [Scalar α]

section
variable (path : Path α)

theorem trial_unmixed (lagrange : α) (options : SolveOptions α) :
    path.unmixed.trial lagrange options = path.trial lagrange options := rfl

theorem respond_unmixed (lagrange : α) (options : SolveOptions α) (trial : Trial α) :
    path.unmixed.respond lagrange options trial =
      ((path.respond lagrange options trial).1.unmixed, (path.respond lagrange options trial).2) := by
  unfold respond
  by_cases none : trial.newcomers.isEmpty
  · rw [if_pos none, if_pos none]
    rfl
  · rw [if_neg none, if_neg none]
    rfl

theorem rounds_unmixed (lagrange : α) (retries round : Nat) (options : SolveOptions α) :
    rounds lagrange retries round options path.unmixed =
      (rounds lagrange retries round options path).map id unmixed := by
  fun_induction rounds lagrange retries round options path with
  | case1 retries round options path failure tried =>
      rw [rounds, trial_unmixed, tried]
      rfl
  | case2 retries round options path trial tried passed =>
      rw [rounds, trial_unmixed, tried]
      simp only [passed, if_true]
      rfl
  | case3 round options path trial tried violated =>
      rw [rounds, trial_unmixed, tried]
      simp only [if_neg violated]
      rfl
  | case4 round options path trial tried violated retries response ih =>
      rw [rounds, trial_unmixed, tried]
      simp only [if_neg violated, respond_unmixed]
      exact ih

theorem attempt_unmixed (current next : α) (options : SolveOptions α) :
    path.unmixed.attempt current next options =
      (path.attempt current next options).map id unmixed :=
  rounds_unmixed (path.screen current next) next _ 1 options

theorem attempts_unmixed (current next : α) (relaxations : Nat) (options : SolveOptions α) :
    attempts current next relaxations options path.unmixed =
      (attempts current next relaxations options path).map id unmixed := by
  fun_induction attempts current next relaxations options path with
  | case1 relaxations options path step middle outcome =>
      rw [attempts, attempt_unmixed, outcome]
      rfl
  | case2 relaxations options path failure middle outcome final =>
      rw [attempts, attempt_unmixed, outcome]
      simp only [Prod.map, id, if_pos final]
  | case3 relaxations options path failure middle outcome mendable policy =>
      have kept : middle.unmixed.options.nonConvergence = .abort := policy
      rw [attempts, attempt_unmixed, outcome]
      simp only [Prod.map, id, if_neg mendable, kept]
  | case4 relaxations options path failure middle outcome mendable policy skipping =>
      have kept : middle.unmixed.options.nonConvergence = .skip := policy
      rw [attempts, attempt_unmixed, outcome]
      simp only [Prod.map, id, if_neg mendable, kept]
      rfl
  | case5 options path failure middle outcome mendable policy =>
      have kept : middle.unmixed.options.nonConvergence = .relax := policy
      rw [attempts, attempt_unmixed, outcome]
      simp only [Prod.map, id, if_neg mendable, kept]
  | case6 options path failure middle outcome mendable relaxations policy again ih =>
      have kept : middle.unmixed.options.nonConvergence = .relax := policy
      rw [attempts, attempt_unmixed, outcome]
      simp only [Prod.map, id, if_neg mendable, kept]
      exact ih

theorem fitValue_unmixed (current next : α) :
    path.unmixed.fitValue current next = (path.fitValue current next).map id unmixed :=
  attempts_unmixed path current next _ _

theorem fitValues_unmixed (current : α) (values : List α) :
    fitValues current values path.unmixed = (fitValues current values path).map id unmixed := by
  induction values generalizing current path with
  | nil => rfl
  | cons next rest ih =>
      rw [fitValues_cons, fitValues_cons, fitValue_unmixed]
      cases path.fitValue current next with
      | mk result middle =>
          cases result with
          | error failure => rfl
          | ok step =>
              simp only [Prod.map, id, ih]
              cases fitValues (nextCurrent current next step) rest middle with
              | mk steps last => cases steps <;> rfl

theorem fit_unmixed (given : Option (List α)) :
    path.unmixed.fit given = (path.fit given).map id unmixed := by
  have listed : path.unmixed.sequence given = path.sequence given := rfl
  have above : path.unmixed.lagrangeMax = path.lagrangeMax := rfl
  unfold fit
  rw [listed, above]
  cases path.sequence given with
  | error failure => rfl
  | ok values =>
      simp only [fitValues_unmixed]
      cases fitValues path.lagrangeMax values path with
      | mk steps last => cases steps <;> rfl

def fits (givens : List (Option (List α))) (path : Path α) : Path α :=
  givens.foldl (fun path given => (path.fit given).2) path

theorem fits_unmixed (givens : List (Option (List α))) :
    fits givens path.unmixed = (fits givens path).unmixed := by
  induction givens generalizing path with
  | nil => rfl
  | cons given rest ih =>
      rw [fits, List.foldl_cons, fit_unmixed]
      exact ih (path.fit given).2

end

theorem fitNull_unmixed (path : Path α) : path.unmixed.fitNull = path.fitNull.map unmixed := by
  have solved : path.unmixed.solveSubproblem path.unmixed.penalty.unpenalized nullLagrange
      path.unmixed.options.nullSolve =
    path.solveSubproblem path.penalty.unpenalized nullLagrange path.options.nullSolve := rfl
  have groups : path.unmixed.penalty = path.penalty := rfl
  unfold fitNull
  dsimp only
  rw [solved, groups]
  by_cases none : path.penalty.unpenalized.isEmpty
  · rw [if_pos none, if_pos none]
    rfl
  · rw [if_neg none, if_neg none]
    cases path.solveSubproblem path.penalty.unpenalized nullLagrange path.options.nullSolve <;> rfl

theorem finish_unmixed (path : Path α) :
    path.unmixed.warnOfRidge.withGradient 1 = (path.warnOfRidge.withGradient 1).unmixed := by
  have quiet : path.unmixed.hasUnpenalizedRidge = path.hasUnpenalizedRidge := rfl
  unfold warnOfRidge
  rw [quiet]
  split <;> rfl

section
variable {loss : Loss α} {design : Design α} {l1 l2 : Array α} {ridgeParameter : Option (Mat α)}
  {options : PathOptions α} {penalty : Penalty α} {parameter : Mat α} {path start : Path α}

theorem validate_unmixed (validated : options.validate = .ok ()) :
    options.unmixed.validate = .ok () := by
  have valid := PathOptions.validate_eq_ok.1 validated
  exact PathOptions.validate_eq_ok.2 ⟨valid.alpha, nofun, valid.gridRatio, valid.gridSize,
    valid.slope, valid.kktTolerance, valid.tolerance, valid.nullTolerance, valid.maxIterations,
    valid.initialStep⟩

theorem chooseRidge_again (zero : IsFiniteNonneg (0 : α)) (one : IsFiniteNonneg (1 : α))
    (chosen : chooseRidge penalty ridgeParameter = .ok parameter) :
    chooseRidge penalty (some parameter) = .ok parameter := by
  cases ridgeParameter with
  | some given =>
      obtain ⟨_, _, accepted⟩ := Failure.bind_eq_ok.1 chosen
      obtain ⟨_, finished⟩ := Failure.guard_eq_ok.1 accepted
      cases finished
      exact chosen
  | none =>
      cases chosen
      have entries : (Mat.ofFn penalty.shape.rows penalty.shape.cols fun group _ =>
          if penalty.isUnpenalized group then (0 : α) else 1).all
            (fun entry => IsFiniteNonneg entry) = true := by
        simp only [Mat.all, List.all_eq_true, List.mem_range, decide_eq_true_eq]
        intro col (colBound : col < penalty.shape.cols) row (rowBound : row < penalty.shape.rows)
        rw [Mat.get_ofFn _ rowBound colBound]
        split
        · exact zero
        · exact one
      refine Failure.bind_eq_ok.2 ⟨(), Failure.expectShape_eq_ok.2 rfl, ?_⟩
      exact Failure.guard_eq_ok.2 ⟨entries, rfl⟩

theorem build_of_accepted (validated : options.validate = .ok ())
    (accepted : Penalty.ofWeights design.inputShape (mixWeights options l1 l2).1
      (mixWeights options l1 l2).2 1 = .ok penalty)
    (chosen : chooseRidge penalty ridgeParameter = .ok parameter) :
    Path.build loss design l1 l2 ridgeParameter options = (do
      Failure.expectShape loss.shape design.outputShape "design output vs saturated loss"
      let fitted ← (blank loss design penalty parameter options).fitNull
      return fitted.warnOfRidge.withGradient 1) := by
  simp only [Path.build, validated, accepted, chosen, Except.mapError, bind, Except.bind]

/-- What a path has kept of the call that built it, or that built a path which it was subsampled from:
the design, the mixed weights, the chosen ridge parameter, and the options but for the share. -/
structure Origin (loss : Loss α) (design : Design α) (l1 l2 : Array α)
    (ridgeParameter : Option (Mat α)) (options : PathOptions α) (path : Path α) : Prop where
  validated : options.validate = .ok ()
  accepted : Penalty.ofWeights design.inputShape (mixWeights options l1 l2).1
    (mixWeights options l1 l2).2 1 = .ok path.penalty
  chosen : chooseRidge path.penalty ridgeParameter = .ok path.ridgeParameter
  options : path.options.unmixed = options.unmixed
  design : path.design = design
  loss : path.loss = loss

theorem build_origin (built : Path.build loss design l1 l2 ridgeParameter options = .ok path) :
    Origin loss design l1 l2 ridgeParameter options path := by
  obtain ⟨validated, -, penalty, parameter, fitted, accepted, chosen, solved, rfl⟩ :=
    build_iff.1 built
  have same := fitNull_finished solved
  refine ⟨validated, ?_, ?_, congrArg PathOptions.unmixed same.options, same.design, same.loss⟩
  · rw [same.penalty]
    exact accepted
  · rw [same.penalty, same.ridgeParameter]
    exact chosen

theorem Origin.sameModel (origin : Origin loss design l1 l2 ridgeParameter options start)
    (same : SameModel start path) : Origin loss design l1 l2 ridgeParameter options path := by
  refine ⟨origin.validated, ?_, ?_, ?_, same.design.trans origin.design,
    same.loss.trans origin.loss⟩
  · rw [same.penalty]
    exact origin.accepted
  · rw [same.penalty, same.ridgeParameter]
    exact origin.chosen
  · rw [same.options]
    exact origin.options

theorem Origin.unmixed (origin : Origin loss design l1 l2 ridgeParameter options path) :
    Origin loss design l1 l2 ridgeParameter options path.unmixed :=
  ⟨origin.validated, origin.accepted, origin.chosen, origin.options, origin.design, origin.loss⟩

theorem Origin.rebuild (zero : IsFiniteNonneg (0 : α))
    (origin : Origin loss design l1 l2 ridgeParameter options path) (sampled : Loss α) :
    Path.build sampled path.design path.penalty.l1 path.penalty.l2 (some path.ridgeParameter)
        path.options.unmixed =
      (Path.build sampled design l1 l2 ridgeParameter options).map Path.unmixed := by
  obtain ⟨one, fields⟩ := Penalty.ofWeights_fields origin.accepted
  have accepted : Penalty.ofWeights path.design.inputShape
      (mixWeights path.options.unmixed path.penalty.l1 path.penalty.l2).1
      (mixWeights path.options.unmixed path.penalty.l1 path.penalty.l2).2 1 = .ok path.penalty := by
    have l1 : path.penalty.l1 = (mixWeights options l1 l2).1 := congrArg Penalty.l1 fields
    have l2 : path.penalty.l2 = _ := congrArg Penalty.l2 fields
    rw [origin.design, mixWeights, PathOptions.unmixed, l1, l2]
    exact origin.accepted
  have validated : path.options.unmixed.validate = .ok () := by
    rw [origin.options]
    exact validate_unmixed origin.validated
  -- Both sides now check the same shapes and solve without penalized groups from the same blank path.
  have blank : blank sampled design path.penalty path.ridgeParameter options.unmixed =
    (blank sampled design path.penalty path.ridgeParameter options).unmixed := rfl
  rw [build_of_accepted validated accepted (chooseRidge_again zero one origin.chosen),
    build_of_accepted origin.validated origin.accepted origin.chosen, origin.options,
    origin.design, blank, fitNull_unmixed]
  cases (Failure.expectShape sampled.shape design.outputShape
      "design output vs saturated loss" : Except (Failure α) Unit) with
  | error failure => rfl
  | ok done =>
      cases (Path.blank sampled design path.penalty path.ridgeParameter options).fitNull with
      | error failure => rfl
      | ok fitted => exact congrArg Except.ok (finish_unmixed fitted)

theorem Origin.subsample (zero : IsFiniteNonneg (0 : α))
    (origin : Origin loss design l1 l2 ridgeParameter options path) (cases : List Nat) :
    path.subsample cases = (do
      let sampled ← loss.subsample cases
      (Path.build sampled design l1 l2 ridgeParameter options).map Path.unmixed) := by
  rw [Path.subsample, origin.loss]
  congr 1
  funext sampled
  exact origin.rebuild zero sampled

theorem Origin.chain (zero : IsFiniteNonneg (0 : α))
    (origin : Origin loss design l1 l2 ridgeParameter options path) {first : List Nat}
    {rest : List (List Nat)} {sub : Path α}
    (run : (first :: rest).foldlM Path.subsample path = .ok sub) :
    ∃ sampled direct, (first :: rest).foldlM Loss.subsample loss = .ok sampled ∧
      Path.build sampled design l1 l2 ridgeParameter options = .ok direct ∧
      sub = direct.unmixed := by
  induction rest generalizing first loss path with
  | nil =>
      rw [List.foldlM_cons, origin.subsample zero] at run
      obtain ⟨last, step, finished⟩ := Failure.bind_eq_ok.1 run
      cases finished
      obtain ⟨sampled, drawn, rebuilt⟩ := Failure.bind_eq_ok.1 step
      obtain ⟨direct, built, rfl⟩ := Failure.map_eq_ok.1 rebuilt
      exact ⟨sampled, direct, Failure.bind_eq_ok.2 ⟨sampled, drawn, rfl⟩, built, rfl⟩
  | cons second rest ih =>
      rw [List.foldlM_cons, origin.subsample zero] at run
      obtain ⟨middle, step, later⟩ := Failure.bind_eq_ok.1 run
      obtain ⟨drawn, taken, rebuilt⟩ := Failure.bind_eq_ok.1 step
      obtain ⟨direct, built, rfl⟩ := Failure.map_eq_ok.1 rebuilt
      obtain ⟨sampled, last, draws, lastBuilt, same⟩ := ih (build_origin built).unmixed later
      exact ⟨sampled, last, Failure.bind_eq_ok.2 ⟨drawn, taken, draws⟩, lastBuilt, same⟩

/-- Subsampling a path, once or again and again and in any state that runs and marked groups have led
to, gives the path that is built from the subsampled loss and the weights, ridge parameter and options
of the first path, but for the share that mixes weights. So both give the same results in every later
run. A subsample fails with what subsampling the loss or that construction fails with. -/
theorem subsample_direct (zero : IsFiniteNonneg (0 : α))
    (built : Path.build loss design l1 l2 ridgeParameter options = .ok start)
    (reaches : Reaches start path) :
    (∀ chain sub, chain ≠ [] → chain.foldlM Path.subsample path = .ok sub →
      ∃ sampled direct, chain.foldlM Loss.subsample loss = .ok sampled ∧
        Path.build sampled design l1 l2 ridgeParameter options = .ok direct ∧
        sub = { direct with options := { direct.options with l1Share := none } } ∧
        ∀ earlier given, ((fits earlier sub).fit given).1 = ((fits earlier direct).fit given).1) ∧
    ∀ cases failure, path.subsample cases = .error failure ↔
      loss.subsample cases = .error failure ∨ ∃ sampled, loss.subsample cases = .ok sampled ∧
        Path.build sampled design l1 l2 ridgeParameter options = .error failure := by
  obtain ⟨events, trace⟩ := reaches.trace
  have origin := (build_origin built).sameModel trace.sameModel
  refine ⟨?_, ?_⟩
  · intro chain sub nonempty run
    obtain ⟨first, rest, rfl⟩ := List.exists_cons_of_ne_nil nonempty
    obtain ⟨sampled, direct, drawn, rebuilt, rfl⟩ := origin.chain zero run
    refine ⟨sampled, direct, drawn, rebuilt, rfl, fun earlier given => ?_⟩
    rw [fits_unmixed, fit_unmixed]
    rfl
  · intro cases failure
    simp only [origin.subsample zero, Failure.bind_eq_error, Failure.map_eq_error]

example : IsFiniteNonneg (0 : Float) := by decide

theorem subsample_direct_unit :
    let options : PathOptions ℝ := { (unitPath 0).options with l1Share := some (1 / 2) }
    let chain := [[0, 0], [0]]
    IsFiniteNonneg (0 : ℝ) ∧ ∃ path reached sub sampled direct,
      Path.build unitLoss unitDesign #[2] #[0] none options = .ok path ∧ Reaches path reached ∧
      chain.foldlM Path.subsample reached = .ok sub ∧
      chain.foldlM Loss.subsample unitLoss = .ok sampled ∧
      Path.build sampled unitDesign #[2] #[0] none options = .ok direct ∧
      sub = { direct with options := { direct.options with l1Share := none } } ∧
      reached.subsample [] = .error .emptySubsample := by
  intro options chain
  have zero : IsFiniteNonneg (0 : ℝ) := (isFiniteNonneg_real 0).2 le_rfl
  have validated : options.validate = .ok () := by
    have valid := PathOptions.validate_eq_ok.1 (build_iff.1 (build_unit 0)).1
    have share : ∀ share, options.l1Share = some share → 0 ≤ share ∧ share ≤ 1 := by
      rintro _ ⟨⟩
      norm_num
    exact PathOptions.validate_eq_ok.2 { valid with l1Share := share }
  have accepted : Penalty.ofWeights (unitDesign : Design ℝ).inputShape
      (mixWeights options #[2] #[0]).1 (mixWeights options #[2] #[0]).2 1 = .ok unitPenalty := by
    have mixed : mixWeights options #[2] #[0] = (#[1], #[0]) := by
      simp [mixWeights, options]
    rw [mixed]
    exact unit_accepted
  have builds : ∀ loss : Loss ℝ, loss.shape = ⟨1, 1⟩ → ∃ path,
      Path.build loss unitDesign #[2] #[0] none options = .ok path := fun loss shape =>
    ⟨_, build_of_penalized validated shape accepted unit_penalized⟩
  obtain ⟨path, built⟩ := builds unitLoss rfl
  let reached := (path.fit (some [2])).2
  have reaches : Reaches path reached := Reaches.start.fit _
  have ran : ∃ sub, chain.foldlM Path.subsample reached = .ok sub := by
    obtain ⟨events, trace⟩ := reaches.trace
    have origin := (build_origin built).sameModel trace.sameModel
    let once : Loss ℝ := unitLoss.withWeights
      (Array.ofFn fun case : Fin 1 => CaseWeights.repeated (CaseWeights.unit 1) [0, 0] case)
    let twice : Loss ℝ := unitLoss.withWeights
      (Array.ofFn fun case : Fin 1 => CaseWeights.repeated once.weights [0] case)
    have drawnOnce : (unitLoss : Loss ℝ).subsample [0, 0] = .ok once := rfl
    have drawnTwice : once.subsample [0] = .ok twice := rfl
    obtain ⟨first, firstBuilt⟩ := builds once rfl
    obtain ⟨second, secondBuilt⟩ := builds twice rfl
    have firstTaken : reached.subsample [0, 0] = .ok first.unmixed := by
      rw [origin.subsample zero, drawnOnce]
      exact congrArg (Except.map unmixed) firstBuilt
    have secondTaken : first.unmixed.subsample [0] = .ok second.unmixed := by
      rw [(build_origin firstBuilt).unmixed.subsample zero, drawnTwice]
      exact congrArg (Except.map unmixed) secondBuilt
    exact ⟨second.unmixed, Failure.bind_eq_ok.2
      ⟨first.unmixed, firstTaken, Failure.bind_eq_ok.2 ⟨second.unmixed, secondTaken, rfl⟩⟩⟩
  obtain ⟨sub, run⟩ := ran
  obtain ⟨chains, fails⟩ := subsample_direct zero built reaches
  obtain ⟨sampled, direct, drawn, rebuilt, same, -⟩ := chains chain sub (List.cons_ne_nil _ _) run
  exact ⟨zero, path, reached, sub, sampled, direct, built, reaches, run, drawn, rebuilt, same,
    (fails [] _).2 (.inl rfl)⟩

end

end Path

end GroupLasso
