import GroupLasso.Proofs.Grid
import GroupLasso.Proofs.Step

/-!
What running a path does, as a list of events. The events of a run follow its loops; they take the path
before the run to the path after it, and each is one that the path at that point permits. What holds
of every event therefore holds of whole runs, also of those that fail.
-/

namespace GroupLasso

open Scalar

namespace Path

inductive Event (α : Type) where
  | solve (path : Path α) (lagrange : α) (options : SolveOptions α)
  | mark (groups : List Nat)
  | record (entry : Diagnostic α)
  | commit (lagrange : α) (trial : Trial α)

namespace Event

variable {α : Type}

def isSolve : Event α → Bool
  | solve .. => true
  | _ => false

def recorded? : Event α → Option (Diagnostic α)
  | record entry => some entry
  | _ => none

def committed? : Event α → Option α
  | commit lagrange _ => some lagrange
  | _ => none

end Event

variable {α : Type}

def apply (path : Path α) : Event α → Path α
  | .solve .. => path
  | .mark groups => path.markEverActive groups
  | .record entry => path.record entry.kind entry.lagrange entry.detail
  | .commit _ trial => path.commit trial

theorem sameModel_apply (path : Path α) (event : Event α) : SameModel path (path.apply event) := by
  cases event <;> exact ⟨rfl, rfl, rfl, rfl, rfl⟩

def commits (events : List (Event α)) : List α := events.filterMap Event.committed?

section
variable (events more : List (Event α))

@[simp] theorem commits_nil : commits ([] : List (Event α)) = [] := rfl

@[simp] theorem commits_append : commits (events ++ more) = commits events ++ commits more :=
  List.filterMap_append

@[simp] theorem commits_solve (path : Path α) (lagrange : α) (options : SolveOptions α) :
    commits (.solve path lagrange options :: events) = commits events := rfl

@[simp] theorem commits_mark (groups : List Nat) :
    commits (.mark groups :: events) = commits events := rfl

@[simp] theorem commits_record (entry : Diagnostic α) :
    commits (.record entry :: events) = commits events := rfl

@[simp] theorem commits_commit (lagrange : α) (trial : Trial α) :
    commits (.commit lagrange trial :: events) = lagrange :: commits events := rfl

end

structure SameFit (path reached : Path α) : Prop where
  solution : reached.solution = path.solution
  gradient : reached.gradient = path.gradient
  predictor : reached.predictor = path.predictor
  step : reached.step = path.step

variable [Scalar α]

def responseEvents (path : Path α) (lagrange : α) (options : SolveOptions α) (trial : Trial α) :
    List (Event α) :=
  if trial.newcomers.isEmpty then
    let tightened := (path.respond lagrange options trial).2
    [.record ⟨.tightening, some lagrange, .tightening trial.violators.length tightened.tolerance⟩]
  else
    [.mark trial.newcomers, .record ⟨.expansion, some lagrange, .expansion trial.newcomers.length⟩]

def roundEvents (lagrange : α) : Nat → SolveOptions α → Path α → List (Event α)
  | retries, options, path =>
      .solve path lagrange options ::
        match path.trial lagrange options with
        | .error _ => []
        | .ok trial =>
            if trial.violators.isEmpty then [.commit lagrange trial]
            else
              match retries with
              | 0 => []
              | retries + 1 =>
                  let response := path.respond lagrange options trial
                  path.responseEvents lagrange options trial ++
                    roundEvents lagrange retries response.2 response.1

theorem solve_mem_rounds (path : Path α) (lagrange : α) (retries : Nat) (options : SolveOptions α) :
    .solve path lagrange options ∈ roundEvents lagrange retries options path := by
  unfold roundEvents
  exact List.mem_cons_self ..

section
variable {path : Path α} {lagrange : α} {options : SolveOptions α} {trial : Trial α}
  (tried : path.trial lagrange options = .ok trial)

include tried

theorem roundEvents_passed (passed : trial.violators.isEmpty) (retries : Nat) :
    roundEvents lagrange retries options path =
      [.solve path lagrange options, .commit lagrange trial] := by
  unfold roundEvents
  simp only [tried, passed, if_true]

theorem roundEvents_stopped (failed : ¬ trial.violators.isEmpty) :
    roundEvents lagrange 0 options path = [.solve path lagrange options] := by
  unfold roundEvents
  simp only [tried, failed]
  rfl

theorem roundEvents_retried (failed : ¬ trial.violators.isEmpty) (retries : Nat)
    (response : Path α × SolveOptions α) (answer : path.respond lagrange options trial = response) :
    roundEvents lagrange (retries + 1) options path = .solve path lagrange options ::
      (path.responseEvents lagrange options trial ++
        roundEvents lagrange retries response.2 response.1) := by
  rw [roundEvents, ← answer]
  simp only [tried, failed]
  rfl

end

def attemptEvents (path : Path α) (current next : α) (options : SolveOptions α) :
    List (Event α) :=
  let alpha := path.options.alpha
  .mark (path.strongSet (alpha * current) (alpha * next) path.gradient).indices ::
    roundEvents next path.options.maxKktRetries options (path.screen current next)

/-- One attempt at a Lagrange value: the path and the settings that it starts from, and the value that it
is screened from. -/
structure Attempt (α : Type) where
  path : Path α
  current : α
  next : α
  options : SolveOptions α

namespace Attempt

def outcome (attempt : Attempt α) : Except (Failure α) (PathStep α) × Path α :=
  attempt.path.attempt attempt.current attempt.next attempt.options

def events (attempt : Attempt α) : List (Event α) :=
  attempt.path.attemptEvents attempt.current attempt.next attempt.options

end Attempt

def relaxation (next : α) (relaxed : SolveOptions α) : Diagnostic α :=
  ⟨.relaxation, some next, .relaxation relaxed.tolerance relaxed.maxIterations⟩

def attemptsMade (current next : α) : Nat → SolveOptions α → Path α → List (Attempt α)
  | relaxations, options, path =>
      ⟨path, current, next, options⟩ ::
        match path.attempt current next options with
        | (.ok _, _) => []
        | (.error failure, path) =>
            if !failure.isConvergenceFailure then []
            else
              match path.options.nonConvergence, relaxations with
              | .abort, _ => []
              | .skip, _ => []
              | .relax, 0 => []
              | .relax, relaxations + 1 =>
                  let relaxed := relax options
                  attemptsMade current next relaxations relaxed
                    (path.apply (.record (relaxation next relaxed)))

def attemptsEvents (current next : α) : Nat → SolveOptions α → Path α → List (Event α)
  | relaxations, options, path =>
      path.attemptEvents current next options ++
        match path.attempt current next options with
        | (.ok _, _) => []
        | (.error failure, path) =>
            if !failure.isConvergenceFailure then []
            else
              match path.options.nonConvergence, relaxations with
              | .abort, _ => []
              | .skip, _ => [.record ⟨.skip, some next, .skip⟩]
              | .relax, 0 => []
              | .relax, relaxations + 1 =>
                  let relaxed := relax options
                  let entry : Diagnostic α := ⟨.relaxation, some next,
                    .relaxation relaxed.tolerance relaxed.maxIterations⟩
                  .record entry ::
                    attemptsEvents current next relaxations relaxed (path.apply (.record entry))

def valueEvents (path : Path α) (current next : α) : List (Event α) :=
  attemptsEvents current next path.options.maxRelaxations path.options.solve path

def valuesEvents : α → List α → Path α → List (Event α)
  | _, [], _ => []
  | current, next :: rest, path =>
      path.valueEvents current next ++
        match path.fitValue current next with
        | (.error _, _) => []
        | (.ok step, path) =>
            valuesEvents (if step.status = .converged then next else current) rest path

def fitEvents (path : Path α) (given : Option (List α)) : List (Event α) :=
  match path.sequence given with
  | .error _ => []
  | .ok values => valuesEvents path.lagrangeMax values path

section
variable {motive : Path α → List (Event α) → Except (Failure α) (PathStep α) × Path α → Prop}

theorem rounds_induction {lagrange : α}
    (stopped : ∀ (path : Path α) (options : SolveOptions α) (failure : Failure α),
      motive path [.solve path lagrange options] (.error failure, path))
    (passed : ∀ (path : Path α) (options : SolveOptions α) (round : Nat) (trial : Trial α),
      path.trial lagrange options = .ok trial → trial.violators.isEmpty →
      motive path [.solve path lagrange options, .commit lagrange trial]
        (.ok (path.certifiedStep lagrange round trial), path.commit trial))
    (retried : ∀ (path : Path α) (options : SolveOptions α) (trial : Trial α)
      (events : List (Event α)) (result : Except (Failure α) (PathStep α) × Path α),
      path.trial lagrange options = .ok trial → ¬ trial.violators.isEmpty →
      motive (path.respond lagrange options trial).1 events result →
      motive path
        (.solve path lagrange options :: (path.responseEvents lagrange options trial ++ events))
        result)
    (retries round : Nat) (options : SolveOptions α) (path : Path α) :
    motive path (roundEvents lagrange retries options path)
      (rounds lagrange retries round options path) := by
  fun_induction rounds lagrange retries round options path with
  | case1 retries round options path failure tried =>
      unfold roundEvents
      rw [tried]
      exact stopped path options failure
  | case2 retries round options path trial tried clean =>
      rw [roundEvents_passed tried clean]
      exact passed path options round trial tried clean
  | case3 round options path trial tried failed =>
      rw [roundEvents_stopped tried failed]
      exact stopped path options _
  | case4 round options path trial tried failed retries response ih =>
      rw [roundEvents_retried tried failed retries response rfl]
      exact retried path options trial _ _ tried failed ih

/-- How the attempts at one Lagrange value come to their outcome: the first settles it, or the value is
skipped after it, or it is made again with relaxed settings. -/
inductive Tries (current next : α) : Nat → SolveOptions α → Path α → List (Attempt α) →
    List (Event α) → Except (Failure α) (PathStep α) × Path α → Prop where
  | ended (relaxations : Nat) (options : SolveOptions α) (path : Path α) :
      Tries current next relaxations options path [⟨path, current, next, options⟩]
        (path.attemptEvents current next options) (path.attempt current next options)
  | skipped {relaxations iterations : Nat} {options : SolveOptions α} {path middle : Path α} :
      path.attempt current next options = (.error (.notConverged iterations), middle) →
      middle.options.nonConvergence = .skip →
      Tries current next relaxations options path [⟨path, current, next, options⟩]
        (path.attemptEvents current next options ++ [.record ⟨.skip, some next, .skip⟩])
        (.ok ((middle.record .skip (some next) .skip).skippedStep next),
          middle.record .skip (some next) .skip)
  | relaxed {relaxations iterations : Nat} {options : SolveOptions α} {path middle : Path α}
      {attempts : List (Attempt α)} {events : List (Event α)}
      {result : Except (Failure α) (PathStep α) × Path α} :
      path.attempt current next options = (.error (.notConverged iterations), middle) →
      middle.options.nonConvergence = .relax →
      Tries current next relaxations (relax options)
        (middle.apply (.record (relaxation next (relax options)))) attempts events result →
      Tries current next (relaxations + 1) options path
        (⟨path, current, next, options⟩ :: attempts)
        (path.attemptEvents current next options ++
          .record (relaxation next (relax options)) :: events) result

theorem tries (current next : α) (relaxations : Nat) (options : SolveOptions α) (path : Path α) :
    Tries current next relaxations options path
      (attemptsMade current next relaxations options path)
      (attemptsEvents current next relaxations options path)
      (attempts current next relaxations options path) := by
  have mended : ∀ {failure : Failure α}, ¬ (!failure.isConvergenceFailure) = true →
      ∃ iterations, failure = .notConverged iterations := by
    intro failure mendable
    cases failure with
    | notConverged iterations => exact ⟨iterations, rfl⟩
    | _ => exact absurd rfl mendable
  fun_induction attempts current next relaxations options path with
  | case1 relaxations options path step middle outcome =>
      unfold attemptsMade attemptsEvents
      simp only [outcome, List.append_nil]
      exact outcome ▸ .ended relaxations options path
  | case2 relaxations options path failure middle outcome final =>
      unfold attemptsMade attemptsEvents
      simp only [outcome, if_pos final, List.append_nil]
      exact outcome ▸ .ended relaxations options path
  | case3 relaxations options path failure middle outcome mendable policy =>
      unfold attemptsMade attemptsEvents
      simp only [outcome, if_neg mendable, policy, List.append_nil]
      exact outcome ▸ .ended relaxations options path
  | case4 relaxations options path failure middle outcome mendable policy skipping =>
      obtain ⟨iterations, rfl⟩ := mended mendable
      unfold attemptsMade attemptsEvents
      simp only [outcome, if_neg mendable, policy]
      exact .skipped outcome policy
  | case5 options path failure middle outcome mendable policy =>
      unfold attemptsMade attemptsEvents
      simp only [outcome, if_neg mendable, policy, List.append_nil]
      exact outcome ▸ .ended 0 options path
  | case6 options path failure middle outcome mendable relaxations policy again ih =>
      obtain ⟨iterations, rfl⟩ := mended mendable
      unfold attemptsMade attemptsEvents
      simp only [outcome, if_neg mendable, policy]
      exact .relaxed outcome policy ih

end

theorem solves_response (path : Path α) (lagrange : α) (options : SolveOptions α)
    (trial : Trial α) :
    (path.responseEvents lagrange options trial).countP Event.isSolve = 0 := by
  unfold responseEvents
  by_cases none : trial.newcomers.isEmpty <;> simp [none, Event.isSolve]

theorem rounds_solves {lagrange : α} {retries round : Nat} {options : SolveOptions α}
    {path : Path α} {step : PathStep α}
    (finished : (rounds lagrange retries round options path).1 = .ok step) :
    step.rounds + 1 =
      round + (roundEvents lagrange retries options path).countP Event.isSolve := by
  fun_induction rounds lagrange retries round options path with
  | case1 => cases finished
  | case2 retries round options path trial tried passed =>
      cases finished
      rw [roundEvents_passed tried passed]
      rfl
  | case3 => cases finished
  | case4 round options path trial tried failed retries response ih =>
      have later := ih finished
      rw [roundEvents_retried tried failed retries response rfl, List.countP_cons_of_pos rfl,
        List.countP_append, solves_response]
      omega

theorem attempt_solves {path : Path α} {current next : α} {options : SolveOptions α}
    {step : PathStep α} (finished : (path.attempt current next options).1 = .ok step) :
    step.rounds = (path.attemptEvents current next options).countP Event.isSolve := by
  have counted := rounds_solves finished
  rw [attemptEvents, List.countP_cons_of_neg Bool.false_ne_true]
  omega

/-! Runs of permitted events. -/

/-- An event that may come next: a solve asks the path itself, and a commit takes a trial of the path
that passed the checks, at a Lagrange value that is finite and positive. -/
inductive Permits (path : Path α) : Event α → Prop where
  | solve {lagrange : α} (options : SolveOptions α) :
      IsFinitePos lagrange → Permits path (.solve path lagrange options)
  | mark (groups : List Nat) : Permits path (.mark groups)
  | record (entry : Diagnostic α) : Permits path (.record entry)
  | commit {lagrange : α} {options : SolveOptions α} {trial : Trial α} :
      IsFinitePos lagrange → path.trial lagrange options = .ok trial → trial.violators.isEmpty →
      Permits path (.commit lagrange trial)

inductive Trace : Path α → List (Event α) → Path α → Prop where
  | done (path : Path α) : Trace path [] path
  | next {path reached : Path α} {event : Event α} {events : List (Event α)} :
      path.Permits event → Trace (path.apply event) events reached →
      Trace path (event :: events) reached

section
variable {path middle reached : Path α} {events more : List (Event α)} {current lagrange : α}

theorem Trace.append (first : Trace path events middle) (second : Trace middle more reached) :
    Trace path (events ++ more) reached := by
  induction first with
  | done path => exact second
  | next permitted _ ih => exact .next permitted (ih second)

theorem Trace.single {event : Event α} (permitted : path.Permits event) :
    Trace path [event] (path.apply event) := .next permitted (.done _)

theorem Trace.after (trace : Trace path (events ++ more) reached) :
    Trace (events.foldl apply path) more reached := by
  induction events generalizing path with
  | nil => exact trace
  | cons event events ih =>
      cases trace with
      | next permitted rest => exact ih rest

theorem Trace.keeps {property : Path α → Prop}
    (step : ∀ path event, property path → path.Permits event → property (path.apply event))
    (trace : Trace path events reached) (holds : property path) : property reached := by
  induction trace with
  | done path => exact holds
  | next permitted _ ih => exact ih (step _ _ holds permitted)

theorem Trace.solves {receiver : Path α} {options : SolveOptions α}
    (trace : Trace path events reached) (asked : .solve receiver lagrange options ∈ events) :
    ∃ before, before <+: events ∧ Trace path before receiver ∧ IsFinitePos lagrange := by
  induction trace with
  | done path => cases asked
  | @next path reached event events permitted rest ih =>
      rcases List.mem_cons.1 asked with rfl | later
      · cases permitted with
        | solve options positive => exact ⟨[], List.nil_prefix, .done _, positive⟩
      · obtain ⟨before, earlier, reaches, positive⟩ := ih later
        refine ⟨event :: before, ?_, .next permitted reaches, positive⟩
        exact List.cons_prefix_cons.2 ⟨rfl, earlier⟩

theorem respond_trace (path : Path α) (lagrange : α) (options : SolveOptions α) (trial : Trial α) :
    Trace path (path.responseEvents lagrange options trial)
      (path.respond lagrange options trial).1 := by
  unfold responseEvents respond
  by_cases none : trial.newcomers.isEmpty
  · simp only [if_pos none]
    exact .single (.record _)
  · simp only [if_neg none]
    exact .next (.mark _) (.single (.record _))

theorem rounds_trace (positive : IsFinitePos lagrange) (retries round : Nat)
    (options : SolveOptions α) (path : Path α) :
    Trace path (roundEvents lagrange retries options path)
      (rounds lagrange retries round options path).2 := by
  apply rounds_induction (motive := fun path events result => Trace path events result.2)
  · intro path options _
    exact .single (.solve options positive)
  · intro path options _ trial tried passed
    exact .next (.solve options positive) (.single (.commit positive tried passed))
  · intro path options trial events result _ _ later
    exact .next (.solve options positive) ((respond_trace path lagrange options trial).append later)

theorem attempt_trace (positive : IsFinitePos lagrange) (path : Path α) (current : α)
    (options : SolveOptions α) :
    Trace path (path.attemptEvents current lagrange options)
      (path.attempt current lagrange options).2 :=
  .next (.mark _) (rounds_trace positive _ _ options (path.screen current lagrange))

theorem Tries.trace {relaxations : Nat} {options : SolveOptions α} {attempts : List (Attempt α)}
    {result : Except (Failure α) (PathStep α) × Path α}
    (tries : Tries current lagrange relaxations options path attempts events result)
    (positive : IsFinitePos lagrange) : Trace path events result.2 := by
  induction tries with
  | ended relaxations options path => exact attempt_trace positive path current options
  | @skipped _ _ options path middle attempted _ =>
      have first := attempt_trace positive path current options
      rw [attempted] at first
      exact first.append (.single (.record _))
  | @relaxed _ _ options path middle _ _ _ attempted _ _ later =>
      have first := attempt_trace positive path current options
      rw [attempted] at first
      exact first.append (.next (.record _) later)

theorem fitValue_trace (positive : IsFinitePos lagrange) (path : Path α) (current : α) :
    Trace path (path.valueEvents current lagrange) (path.fitValue current lagrange).2 :=
  (tries current lagrange _ _ path).trace positive

theorem fitValues_trace {values : List α} (positive : ∀ lagrange ∈ values, IsFinitePos lagrange)
    (current : α) (path : Path α) :
    Trace path (valuesEvents current values path) (fitValues current values path).2 := by
  fun_induction fitValues current values path with
  | case1 current path => exact .done path
  | case2 current next rest path failure middle outcome =>
      have first := fitValue_trace (positive next (List.mem_cons_self ..)) path current
      unfold valuesEvents
      simpa only [outcome, List.append_nil] using first
  | case3 before next rest path step middle outcome current failure last remaining ih =>
      have first := fitValue_trace (positive next (List.mem_cons_self ..)) path before
      have second := ih fun lagrange member => positive lagrange (List.mem_cons_of_mem _ member)
      unfold valuesEvents
      simp only [outcome, remaining] at first second ⊢
      exact first.append second
  | case4 before next rest path step middle outcome current steps last remaining ih =>
      have first := fitValue_trace (positive next (List.mem_cons_self ..)) path before
      have second := ih fun lagrange member => positive lagrange (List.mem_cons_of_mem _ member)
      unfold valuesEvents
      simp only [outcome, remaining] at first second ⊢
      exact first.append second

theorem fit_trace (path : Path α) (given : Option (List α)) :
    Trace path (path.fitEvents given) (path.fit given).2 := by
  unfold fitEvents fit
  cases listed : path.sequence given with
  | error failure => exact .done path
  | ok values =>
      obtain ⟨-, positive, -⟩ := Grid.validate_eq_ok.1 (sequence_eq_ok listed).1
      have trace := fitValues_trace positive path.lagrangeMax path
      simp only
      cases outcome : fitValues path.lagrangeMax values path with
      | mk steps reached =>
          rw [outcome] at trace
          cases steps with
          | error failure => exact trace
          | ok steps => exact trace

theorem Trace.sameModel (trace : Trace path events reached) : SameModel path reached :=
  trace.keeps (fun _ event same _ => same.trans (sameModel_apply _ event)) (.refl path)

theorem Trace.log (trace : Trace path events reached) :
    reached.log.entries = path.log.entries ++ events.filterMap Event.recorded? := by
  induction trace with
  | done path => simp
  | @next path reached event events _ _ ih =>
      rw [ih]
      cases event with
      | record entry => simp [apply, Path.record, DiagnosticLog.push, Event.recorded?]
      | solve receiver lagrange options => rfl
      | mark groups => rfl
      | commit lagrange trial => rfl

theorem Trace.sameFit (trace : Trace path events reached)
    (uncommitted : commits events = []) : SameFit path reached := by
  induction trace with
  | done path => exact ⟨rfl, rfl, rfl, rfl⟩
  | @next path reached event events _ _ ih =>
      cases event with
      | commit lagrange trial => cases uncommitted
      | solve receiver lagrange options => exact ih uncommitted
      | mark groups =>
          obtain ⟨solution, gradient, predictor, step⟩ := ih uncommitted
          exact ⟨solution, gradient, predictor, step⟩
      | record entry =>
          obtain ⟨solution, gradient, predictor, step⟩ := ih uncommitted
          exact ⟨solution, gradient, predictor, step⟩

theorem Trace.unmarked (trace : Trace path events reached) :
    reached.everActive = none ↔ path.everActive = none ∧ ∀ groups, .mark groups ∉ events := by
  induction trace with
  | done path => simp
  | @next path reached event events _ _ ih =>
      rw [ih]
      cases event with
      | mark groups =>
          constructor
          · rintro ⟨⟨⟩, _⟩
          · rintro ⟨_, unmarked⟩
            exact absurd (List.mem_cons_self ..) (unmarked groups)
      | solve receiver lagrange options => simp [apply]
      | record entry => simp [apply, Path.record]
      | commit lagrange trial => simp [apply, commit]

theorem Trace.everActive (trace : Trace path events reached) :
    reached.everActiveMask.length = path.everActiveMask.length ∧
      ∀ group, reached.everActiveMask.contains group = true ↔
        path.everActiveMask.contains group = true ∨
          group < path.everActiveMask.length ∧ ∃ groups, .mark groups ∈ events ∧ group ∈ groups := by
  induction trace with
  | done path => simp
  | @next path reached event events _ _ ih =>
      obtain ⟨length, members⟩ := ih
      cases event with
      | mark groups =>
          have marked : (path.apply (.mark groups)).everActiveMask =
            path.everActiveMask.insertAll groups := rfl
          rw [marked, Mask.length_insertAll] at length members
          refine ⟨length, fun group => ?_⟩
          rw [members, Mask.contains_insertAll]
          simp only [List.mem_cons, Event.mark.injEq]
          constructor
          · rintro ((active | ⟨listed, bound⟩) | ⟨bound, later, marks, listed⟩)
            · exact .inl active
            · exact .inr ⟨bound, groups, .inl rfl, listed⟩
            · exact .inr ⟨bound, later, .inr marks, listed⟩
          · rintro (active | ⟨bound, later, rfl | marks, listed⟩)
            · exact .inl (.inl active)
            · exact .inl (.inr ⟨listed, bound⟩)
            · exact .inr ⟨bound, later, marks, listed⟩
      | solve receiver lagrange options => simpa [apply] using ⟨length, members⟩
      | record entry => simpa [apply] using ⟨length, members⟩
      | commit lagrange trial => simpa [apply] using ⟨length, members⟩

end

end Path

end GroupLasso
