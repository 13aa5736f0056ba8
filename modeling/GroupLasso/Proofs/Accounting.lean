import GroupLasso.Proofs.Candidates

/-!
What a run counts and logs. Every round of an attempt but the last logs that the candidates were
expanded or the tolerance was tightened; every attempt at a Lagrange value but the last ends with a
relaxation; and a value that is skipped logs that, once.
-/

namespace GroupLasso

open Scalar Failure

namespace Path

variable {α : Type} [Scalar α]

def logged (events : List (Event α)) : List (Diagnostic α) := events.filterMap Event.recorded?

def countLogged (kind : DiagnosticKind) (events : List (Event α)) : Nat :=
  (logged events).countP (·.kind == kind)

section
variable (events more : List (Event α))

omit [Scalar α]

@[simp] theorem logged_append : logged (events ++ more) = logged events ++ logged more :=
  List.filterMap_append

@[simp] theorem logged_solve (path : Path α) (lagrange : α) (options : SolveOptions α) :
    logged (.solve path lagrange options :: events) = logged events := rfl

@[simp] theorem logged_mark (groups : List Nat) :
    logged (.mark groups :: events) = logged events := rfl

@[simp] theorem logged_record (entry : Diagnostic α) :
    logged (.record entry :: events) = entry :: logged events := rfl

@[simp] theorem countLogged_append (kind : DiagnosticKind) :
    countLogged kind (events ++ more) = countLogged kind events + countLogged kind more := by
  simp [countLogged]

theorem countLogged_record (kind : DiagnosticKind) (entry : Diagnostic α) :
    countLogged kind (.record entry :: events) =
      countLogged kind events + if entry.kind = kind then 1 else 0 := by
  simp [countLogged, List.countP_cons]

theorem countLogged_eq_zero {kind : DiagnosticKind} :
    countLogged kind events = 0 ↔ ∀ entry ∈ logged events, entry.kind ≠ kind := by
  simp [countLogged, List.countP_eq_zero]

end

theorem logged_response (path : Path α) (lagrange : α) (options : SolveOptions α)
    (trial : Trial α) : ∃ entry, logged (path.responseEvents lagrange options trial) = [entry] ∧
      entry.kind = if trial.newcomers.isEmpty then .tightening else .expansion := by
  unfold responseEvents
  by_cases none : trial.newcomers.isEmpty
  · rw [if_pos none, if_pos none]
    exact ⟨_, rfl, rfl⟩
  · rw [if_neg none, if_neg none]
    exact ⟨_, rfl, rfl⟩

theorem rounds_logged (lagrange : α) (retries : Nat) (options : SolveOptions α) (path : Path α) :
    (∀ entry ∈ logged (roundEvents lagrange retries options path),
      entry.kind = .expansion ∨ entry.kind = .tightening) ∧
    (roundEvents lagrange retries options path).countP Event.isSolve =
      (logged (roundEvents lagrange retries options path)).length + 1 := by
  refine rounds_induction (motive := fun _ events _ =>
    (∀ entry ∈ logged events, entry.kind = .expansion ∨ entry.kind = .tightening) ∧
      events.countP Event.isSolve = (logged events).length + 1) ?_ ?_ ?_ retries 1 options path
  · intro path options failure
    exact ⟨List.forall_mem_nil _, rfl⟩
  · intro path options round trial _ _
    exact ⟨List.forall_mem_nil _, rfl⟩
  · intro path options trial events result _ _ ⟨kinds, solves⟩
    obtain ⟨entry, only, kind⟩ := logged_response path lagrange options trial
    rw [logged_solve, logged_append, only, List.countP_cons_of_pos rfl, List.countP_append,
      solves_response, solves]
    refine ⟨List.forall_mem_cons.2 ⟨?_, kinds⟩, by simp⟩
    rw [kind]
    split_ifs
    · exact .inr rfl
    · exact .inl rfl

theorem rounds_expansions (lagrange : α) (retries : Nat) (options : SolveOptions α) {path : Path α}
    (aligned : path.Aligned) :
    countLogged .expansion (roundEvents lagrange retries options path) ≤ path.outside.card := by
  refine rounds_induction (motive := fun path events _ =>
    path.Aligned → countLogged .expansion events ≤ path.outside.card) ?_ ?_ ?_ retries 1 options path
    aligned
  · intro path options failure _
    exact Nat.zero_le _
  · intro path options round trial _ _ _
    exact Nat.zero_le _
  · intro path options trial events result tried failed later aligned
    change countLogged .expansion (path.responseEvents lagrange options trial ++ events) ≤ _
    rw [countLogged_append]
    by_cases none : trial.newcomers.isEmpty
    · -- The tolerance is tightened, and the candidates are the same.
      simp only [respond, if_pos none] at later
      have tightened : countLogged .expansion (path.responseEvents lagrange options trial) = 0 := by
        rw [responseEvents, if_pos none]
        rfl
      have rest := later ⟨aligned.inputs, aligned.length⟩
      rw [tightened, zero_add]
      exact rest
    · -- At least one group is added, and there is one fewer outside.
      simp only [respond, if_neg none] at later
      have expanded : countLogged .expansion (path.responseEvents lagrange options trial) = 1 := by
        rw [responseEvents, if_neg none]
        rfl
      obtain ⟨group, new⟩ := List.exists_mem_of_ne_nil _ (mt List.isEmpty_iff.2 none)
      have fewer : (path.markEverActive trial.newcomers).outside.card < path.outside.card :=
        outside_mark aligned.length new ((mem_newcomers aligned tried).1 new).2
      have marked : (path.markEverActive trial.newcomers).Aligned := aligned.apply (.mark _)
      have rest := later ⟨marked.inputs, marked.length⟩
      have same : ((path.markEverActive trial.newcomers).record .expansion (some lagrange)
        (.expansion trial.newcomers.length)).outside = (path.markEverActive trial.newcomers).outside :=
          rfl
      rw [same] at rest
      omega

theorem rounds_solves_le (lagrange : α) (retries : Nat) (options : SolveOptions α) (path : Path α) :
    (roundEvents lagrange retries options path).countP Event.isSolve ≤ retries + 1 := by
  induction retries generalizing options path with
  | zero =>
      unfold roundEvents
      rw [List.countP_cons_of_pos rfl]
      split
      · simp
      · split_ifs <;> simp [Event.isSolve]
  | succ retries ih =>
      unfold roundEvents
      rw [List.countP_cons_of_pos rfl]
      split
      · simp
      · rename_i trial _
        split_ifs
        · simp [Event.isSolve]
        · have rest := ih (path.respond lagrange options trial).2 (path.respond lagrange options trial).1
          rw [List.countP_append, solves_response]
          omega

def Attempt.logged (attempt : Attempt α) : List (Diagnostic α) := Path.logged attempt.events

/-- What an attempt logs and counts. Its rounds are the restricted problems that it solves; all but the
last log one entry each, and there are no more of them than retries are allowed. -/
structure Attempt.Accounted (attempt : Attempt α) : Prop where
  log : attempt.outcome.2.log.entries = attempt.path.log.entries ++ attempt.logged
  kinds : ∀ entry ∈ attempt.logged, entry.kind = .expansion ∨ entry.kind = .tightening
  expansions : countLogged .expansion attempt.events ≤
    (attempt.path.screen attempt.current attempt.next).outside.card
  solves : attempt.events.countP Event.isSolve = attempt.logged.length + 1
  bounded : attempt.events.countP Event.isSolve ≤ attempt.path.options.maxKktRetries + 1
  committed : ∀ step, attempt.outcome.1 = .ok step → step.status = .converged ∧ 1 ≤ step.rounds ∧
    step.rounds ≤ attempt.path.options.maxKktRetries + 1 ∧
    attempt.logged.length = step.rounds - 1
  exhausted : ∀ lagrange retries, attempt.outcome.1 = .error (.kktRetriesExceeded lagrange retries) →
    lagrange = attempt.next ∧ retries = attempt.path.options.maxKktRetries ∧
    attempt.events.countP Event.isSolve = attempt.path.options.maxKktRetries + 1 ∧
    ∀ receiver value options, .solve receiver value options ∈ attempt.events →
      ∃ trial, receiver.trial value options = .ok trial ∧ trial.violators ≠ []

section
variable (path : Path α) (current next : α) (options : SolveOptions α)

theorem attempt_logged :
    (∀ entry ∈ logged (path.attemptEvents current next options),
      entry.kind = .expansion ∨ entry.kind = .tightening) ∧
    (path.attemptEvents current next options).countP Event.isSolve =
      (logged (path.attemptEvents current next options)).length + 1 := by
  rw [attemptEvents, logged_mark, List.countP_cons_of_neg Bool.false_ne_true]
  exact rounds_logged ..

theorem attempt_counts_none {kind : DiagnosticKind} (expansion : kind ≠ .expansion)
    (tightening : kind ≠ .tightening) :
    countLogged kind (path.attemptEvents current next options) = 0 := by
  rw [countLogged_eq_zero]
  rintro entry listed rfl
  exact (attempt_logged path current next options).1 entry listed |>.elim expansion tightening

theorem attempt_solves_le : (path.attemptEvents current next options).countP Event.isSolve ≤
    path.options.maxKktRetries + 1 := by
  rw [attemptEvents, List.countP_cons_of_neg Bool.false_ne_true]
  exact rounds_solves_le ..

theorem attempt_expansions (aligned : path.Aligned) :
    countLogged .expansion (path.attemptEvents current next options) ≤
      (path.screen current next).outside.card := by
  rw [countLogged, attemptEvents, logged_mark]
  exact rounds_expansions next path.options.maxKktRetries options (aligned.apply (.mark _))

end

theorem Attempt.trace {attempt : Attempt α} (positive : IsFinitePos attempt.next) :
    Trace attempt.path attempt.events attempt.outcome.2 := by
  unfold events outcome
  exact attempt_trace positive _ _ _

theorem Attempt.accounted {attempt : Attempt α} (positive : IsFinitePos attempt.next)
    (aligned : attempt.path.Aligned) : attempt.Accounted := by
  obtain ⟨kinds, solves⟩ :=
    attempt_logged attempt.path attempt.current attempt.next attempt.options
  have bounded := attempt_solves_le attempt.path attempt.current attempt.next attempt.options
  have expansions := attempt_expansions attempt.path attempt.current attempt.next attempt.options
    aligned
  refine ⟨(trace positive).log, kinds, expansions, solves, bounded, ?_, ?_⟩
  · intro step finished
    have rounds : step.rounds = _ := attempt_solves finished
    have length : attempt.logged.length + 1 = step.rounds := solves.symm.trans rounds.symm
    exact ⟨rounds_converged finished, by omega, rounds.trans_le bounded, by omega⟩
  · intro lagrange retries failed
    rcases attempt_error failed with ⟨receiver, options, _, raised⟩ | ⟨same, exhausted⟩
    · exact (raises_trial _ raised).elim
    · cases same
      exact ⟨rfl, rfl, exhausted⟩

structure Attempt.Repeats (first second : Attempt α) : Prop where
  failed : ∃ iterations, first.outcome.1 = .error (.notConverged iterations)
  path : second.path = first.outcome.2.apply (.record (relaxation first.next second.options))
  current : second.current = first.current
  next : second.next = first.next
  options : second.options = relax first.options

def outcomeSkips : Except (Failure α) (PathStep α) → Nat
  | .error _ => 0
  | .ok step => if step.status = .skipped then 1 else 0

theorem relax_iterate (count : Nat) (options : SolveOptions α) :
    relax^[count] options = ⟨(· * 10)^[count] options.tolerance,
      if count = 0 then options.maxIterations else min (options.maxIterations * 2 ^ count) maxBudget,
      options.initialStep⟩ := by
  induction count with
  | zero => rfl
  | succ count ih =>
      have saturated : min ((if count = 0 then options.maxIterations
          else min (options.maxIterations * 2 ^ count) maxBudget) * 2) maxBudget =
            min (options.maxIterations * 2 ^ (count + 1)) maxBudget := by
        rw [pow_succ, ← mul_assoc]
        split_ifs with first
        · rw [first, pow_zero, mul_one]
        · omega
      rw [Function.iterate_succ_apply', ih, Function.iterate_succ_apply', if_neg (Nat.succ_ne_zero _)]
      exact congrArg (fun budget => (⟨_, budget, _⟩ : SolveOptions α)) saturated

section
variable {current next : α} {relaxations : Nat} {options : SolveOptions α} {path : Path α}
  {attempts : List (Attempt α)} {events : List (Event α)}
  {result : Except (Failure α) (PathStep α) × Path α}
  (tries : Tries current next relaxations options path attempts events result)

include tries

theorem Tries.head : attempts.head? = some ⟨path, current, next, options⟩ := by
  cases tries <;> rfl

theorem Tries.length_le : attempts.length ≤ relaxations + 1 := by
  induction tries with
  | ended => simp
  | skipped => simp
  | relaxed _ _ _ ih => simpa using ih

theorem Tries.options_eq {index : Nat} {attempt : Attempt α}
    (listed : attempts[index]? = some attempt) : attempt.options = relax^[index] options := by
  induction tries generalizing index with
  | ended =>
      cases index with
      | zero =>
          cases listed
          rfl
      | succ index => cases listed
  | skipped =>
      cases index with
      | zero =>
          cases listed
          rfl
      | succ index => cases listed
  | relaxed _ _ _ ih =>
      cases index with
      | zero =>
          cases listed
          rfl
      | succ index => exact ih (by simpa using listed)

theorem Tries.repeats : attempts.IsChain Attempt.Repeats := by
  induction tries with
  | ended => exact List.isChain_singleton _
  | skipped => exact List.isChain_singleton _
  | @relaxed _ iterations options path middle _ _ _ attempted _ later ih =>
      refine List.isChain_cons.2 ⟨?_, ih⟩
      rintro second found
      cases later.head.symm.trans found
      have outcome : Attempt.outcome ⟨path, current, next, options⟩ =
        (.error (.notConverged iterations), middle) := attempted
      exact ⟨⟨iterations, by rw [outcome]⟩, by rw [outcome], rfl, rfl, rfl⟩

theorem Tries.counts : countLogged .relaxation events + 1 = attempts.length ∧
    countLogged .skip events = outcomeSkips result.1 := by
  have relaxations (path : Path α) (options : SolveOptions α) :
      countLogged .relaxation (path.attemptEvents current next options) = 0 :=
    attempt_counts_none path current next options nofun nofun
  have skips (path : Path α) (options : SolveOptions α) :
      countLogged .skip (path.attemptEvents current next options) = 0 :=
    attempt_counts_none path current next options nofun nofun
  induction tries with
  | ended _ options path =>
      refine ⟨congrArg (· + 1) (relaxations path options), (skips path options).trans ?_⟩
      cases finished : (path.attempt current next options).1 with
      | error failure => rfl
      | ok step => simp [outcomeSkips, rounds_converged finished]
  | skipped _ _ =>
      rw [countLogged_append, countLogged_append, relaxations, skips]
      exact ⟨rfl, rfl⟩
  | relaxed _ _ _ ih =>
      rw [countLogged_append, countLogged_append, relaxations, skips, countLogged_record,
        countLogged_record, ← ih.2, List.length_cons, ← ih.1]
      exact ⟨by simp [relaxation], by simp [relaxation]⟩

theorem Tries.policy :
    (1 < attempts.length → path.options.nonConvergence = .relax) ∧
      (0 < outcomeSkips result.1 → path.options.nonConvergence = .skip) := by
  induction tries with
  | ended relaxations options path =>
      refine ⟨fun several => absurd several (lt_irrefl 1), fun skips => ?_⟩
      cases finished : (path.attempt current next options).1 with
      | error failure => simp [outcomeSkips, finished] at skips
      | ok step => simp [outcomeSkips, finished, rounds_converged finished] at skips
  | skipped attempted policy =>
      rw [← (sameModel_attempt attempted).options]
      exact ⟨fun several => absurd several (lt_irrefl 1), fun _ => policy⟩
  | relaxed attempted policy _ ih =>
      rw [← (sameModel_attempt attempted).options]
      exact ⟨fun _ => policy, ih.2⟩

theorem Tries.solves_le : events.countP Event.isSolve ≤
    attempts.length * (path.options.maxKktRetries + 1) := by
  induction tries with
  | ended relaxations options path =>
      rw [List.length_singleton, one_mul]
      exact attempt_solves_le path current next options
  | @skipped _ _ options path _ _ _ =>
      rw [List.length_singleton, one_mul, List.countP_append,
        List.countP_cons_of_neg Bool.false_ne_true, List.countP_nil, Nat.add_zero]
      exact attempt_solves_le path current next options
  | @relaxed _ _ options path middle _ _ _ attempted _ _ ih =>
      have first := attempt_solves_le path current next options
      have same : (middle.apply (.record (relaxation next (relax options)))).options = path.options :=
        (sameModel_attempt attempted).options
      rw [same] at ih
      rw [List.countP_append, List.countP_cons_of_neg Bool.false_ne_true, List.length_cons, add_mul,
        one_mul]
      omega

end

def Visit.logged (visit : Visit α) : List (Diagnostic α) := Path.logged visit.events

/-- What the work on one Lagrange value logs and counts. The first attempt starts from the settings of the
path, and each further one relaxes them once more. -/
structure Visit.Accounted (visit : Visit α) : Prop where
  log : visit.outcome.2.log.entries = visit.path.log.entries ++ visit.logged
  attempts : 1 ≤ visit.attempts.length ∧
    visit.attempts.length ≤ visit.path.options.maxRelaxations + 1
  repeats : visit.attempts.IsChain Attempt.Repeats
  options : ∀ (index : Nat) (attempt : Attempt α), visit.attempts[index]? = some attempt →
    attempt.options = ⟨(· * 10)^[index] visit.path.options.tolerance,
      if index = 0 then visit.path.options.maxIterations
        else min (visit.path.options.maxIterations * 2 ^ index) maxBudget,
      visit.path.options.initialStep⟩
  relaxations : countLogged .relaxation visit.events + 1 = visit.attempts.length
  relaxed : 0 < countLogged .relaxation visit.events →
    visit.path.options.nonConvergence = .relax
  skips : countLogged .skip visit.events = outcomeSkips visit.outcome.1
  skipped : 0 < countLogged .skip visit.events → visit.path.options.nonConvergence = .skip
  solves : visit.events.countP Event.isSolve ≤
    (visit.path.options.maxRelaxations + 1) * (visit.path.options.maxKktRetries + 1)

theorem Visit.trace {visit : Visit α} (positive : IsFinitePos visit.next) :
    Trace visit.path visit.events visit.outcome.2 := by
  unfold events outcome
  exact fitValue_trace positive _ _

theorem Visit.accounted {visit : Visit α} (positive : IsFinitePos visit.next) : visit.Accounted := by
  have tries := visit.tries
  obtain ⟨relaxations, skips⟩ := tries.counts
  obtain ⟨relaxed, skipped⟩ := tries.policy
  refine ⟨(trace positive).log, ⟨by omega, tries.length_le⟩, tries.repeats, ?_,
    relaxations, fun some => relaxed (by omega), skips, fun some => skipped (skips ▸ some), ?_⟩
  · intro index attempt listed
    rw [tries.options_eq listed, relax_iterate]
    rfl
  · exact tries.solves_le.trans (Nat.mul_le_mul_right _ tries.length_le)

theorem logged_visits (visits : List (Visit α)) :
    logged (visits.flatMap Visit.events) = visits.flatMap Visit.logged := by
  induction visits with
  | nil => rfl
  | cons visit rest ih =>
      rw [List.flatMap_cons, List.flatMap_cons, logged_append, ih]
      rfl

theorem Works.skips {current : α} {values : List α} {path : Path α} {visits : List (Visit α)}
    {events : List (Event α)} {result : Except (Failure α) (List (PathStep α)) × Path α}
    (works : Works current values path visits events result) {steps : List (PathStep α)}
    (finished : result.1 = .ok steps) :
    countLogged .skip events = steps.countP (·.status == .skipped) := by
  induction works generalizing steps with
  | done current path =>
      cases finished
      rfl
  | failed _ => cases finished
  | @stepped current next _ path _ step _ _ result outcome _ ih =>
      obtain ⟨later, last⟩ := result
      cases later with
      | error failure => cases finished
      | ok rest =>
          cases finished
          have first : countLogged .skip (path.valueEvents current next) =
              outcomeSkips (path.fitValue current next).1 := (tries current next _ _ path).counts.2
          rw [outcome] at first
          rw [countLogged_append, ih rfl, List.countP_cons, Nat.add_comm]
          simpa [outcomeSkips] using first

/-- In every state that runs and marked groups can reach from a built path, and for every run: the
values that it works through begin the sequence, each from the settings of the path, and every value and
every attempt at it is accounted for. When rounds run out, they do so in one attempt. A run that succeeds
has worked through all values, with one skip logged for every step that was skipped. -/
theorem fit_accounting {loss : Loss α} {design : Design α} {l1 l2 : Array α}
    {ridgeParameter : Option (Mat α)} {options : PathOptions α} {start path : Path α}
    (built : Path.build loss design l1 l2 ridgeParameter options = .ok start)
    (reaches : Reaches start path) (given : Option (List α)) :
    (∀ visit ∈ path.visits given, visit.path.options = options ∧ visit.Accounted ∧
      ∀ attempt ∈ visit.attempts, attempt.path.options = options ∧
        attempt.current = visit.current ∧ attempt.next = visit.next ∧ attempt.Accounted) ∧
    (path.fit given).2.log.entries =
      path.log.entries ++ (path.visits given).flatMap Visit.logged ∧
    (∀ values, path.sequence given = .ok values →
      (path.visits given).map Visit.next <+: values) ∧
    (∀ lagrange retries, (path.fit given).1 = .error (.kktRetriesExceeded lagrange retries) →
      ∃ visit ∈ path.visits given, ∃ attempt ∈ visit.attempts,
        attempt.outcome.1 = .error (.kktRetriesExceeded lagrange retries)) ∧
    ∀ result, (path.fit given).1 = .ok result →
      path.sequence given = .ok ((path.visits given).map Visit.next) ∧
      (path.visits given).map (·.outcome.1) = result.steps.map .ok ∧
      ((path.visits given).flatMap Visit.logged).countP (·.kind == .skip) = result.skipped := by
  obtain ⟨events, reached⟩ := reaches.trace
  have aligned := reached.aligned (build_aligned built)
  have same : path.options = options := by
    obtain ⟨-, -, _, _, _, -, -, solved, rfl⟩ := build_iff.1 built
    exact reached.sameModel.options.trans (fitNull_finished solved).options
  refine ⟨?_, ?_, ?_, ?_, ?_⟩
  · intro visit visited
    obtain ⟨positive, earlier, trace⟩ := visits_reached visited
    refine ⟨trace.sameModel.options.trans same, visit.accounted positive, fun attempt made => ?_⟩
    obtain ⟨current, next, before, onwards⟩ := visit.tries.reached positive made
    have whole := trace.append onwards
    exact ⟨whole.sameModel.options.trans same, current, next,
      attempt.accounted (next ▸ positive) (whole.aligned aligned)⟩
  · rw [← logged_visits, ← fitEvents_eq]
    exact (fit_trace path given).log
  · intro values listed
    obtain ⟨result, works, -⟩ := fit_works listed
    exact works.values_prefix
  · intro lagrange retries failed
    rcases fit_error failed with refused | found
    · obtain ⟨_, ⟨⟩⟩ := raises_sequence _ refused
    · exact found
  · intro result finished
    cases listed : path.sequence given with
    | error failure =>
        rw [fit, listed] at finished
        cases finished
    | ok values =>
        obtain ⟨⟨steps, last⟩, works, run⟩ := fit_works listed
        rw [run] at finished
        cases steps with
        | error failure => cases finished
        | ok steps =>
            cases finished
            obtain ⟨all, outcomes⟩ := works.steps rfl
            refine ⟨congrArg Except.ok all.symm, outcomes, ?_⟩
            rw [← logged_visits, ← fitEvents_eq]
            exact works.skips rfl

/-! A solver that runs out of passes, once the coefficient has become a candidate. -/

theorem attempts_of_ok {current next : α} {options : SolveOptions α} {path middle : Path α}
    {step : PathStep α} (attempted : path.attempt current next options = (.ok step, middle))
    (relaxations : Nat) : attempts current next relaxations options path = (.ok step, middle) := by
  unfold attempts
  rw [attempted]

section
variable {current next : α} {iterations : Nat} {options : SolveOptions α} {path middle : Path α}
  (attempted : path.attempt current next options = (.error (.notConverged iterations), middle))

include attempted

theorem attempts_of_relax (policy : middle.options.nonConvergence = .relax) (relaxations : Nat) :
    attempts current next (relaxations + 1) options path =
      attempts current next relaxations (relax options)
        (middle.apply (.record (relaxation next (relax options)))) := by
  rw [attempts, attempted]
  simp only [policy]
  exact if_neg Bool.false_ne_true

theorem attempts_of_skip (policy : middle.options.nonConvergence = .skip) (relaxations : Nat) :
    attempts current next relaxations options path =
      (.ok ((middle.record .skip (some next) .skip).skippedStep next),
        middle.record .skip (some next) .skip) := by
  unfold attempts
  rw [attempted]
  simp only [policy]
  rfl

end

def hastyPath {α : Type} [Scalar α] (policy : NonConvergence) : Path α :=
  unitPathWith { PathOptions.default with
    slope := -1, tolerance := 1 / 10, maxIterations := 1, maxKktRetries := 1, nonConvergence := policy }

structure Hasty (path : Path ℝ) : Prop where
  built : Path.build unitLoss unitDesign #[1] #[0] none path.options = .ok path
  model : UnitModel path
  zero : path.solution = Mat.zero 1 1
  step : path.step = 1
  silent : path.log.entries = []
  slope : path.options.slope = -1
  settings : path.options.solve = ⟨1 / 10, 1, none⟩
  retries : path.options.maxKktRetries = 1

theorem hasty (policy : NonConvergence) : Hasty (hastyPath policy) := by
  have valid : (hastyPath policy : Path ℝ).options.Valid :=
    { PathOptions.valid_default with
      slope := ⟨rfl, le_rfl⟩
      tolerance := by norm_num [hastyPath, unitPathWith, withGradient, blank]
      maxIterations := le_rfl }
  have built := build_unitWith valid rfl
  refine ⟨built, ⟨(build_fresh built).wellFormed, rfl, rfl, rfl, rfl, ?_⟩, rfl, rfl, rfl, rfl, rfl, rfl⟩
  norm_num [hastyPath, unitPathWith, withGradient, blank, PathOptions.default]

theorem hasty_unsettled {options : SolveOptions ℝ} (first : options.initialStep = some 1)
    (tight : options.tolerance = 1 / 10) (budget : options.maxIterations = 1) :
    ((unitProblem (1 / 2)).solve options).1 = .error (.notConverged 1) := by
  have starting : (unitProblem (1 / 2)).startingStep options = 1 := by
    simp [Problem.startingStep, first]
  obtain ⟨candidate, accepted⟩ := unit_first one_half_lt_one one_pos le_rfl starting
  refine Problem.solve_of_far budget candidate (by rwa [starting]) ?_
  let found : Mat ℝ := Mat.ofFn 1 1 fun _ _ => 1 * (1 - 1 / 2)
  have foundShape : found.shape = ⟨1, 1⟩ := rfl
  have entry : found.get 0 0 = 1 * (1 - 1 / 2) := Mat.get_ofFn _ one_pos one_pos
  change _ < (found.addScaled (-1) (Mat.zero 1 1)).frobenius
  rw [unit_difference foundShape, unit_frobenius foundShape, entry, tight]
  norm_num

section
variable {path : Path ℝ} (hasty : Hasty path)

include hasty

theorem Hasty.gradient : path.gradient = unitDescent :=
  hasty.model.fresh_gradient (build_fresh hasty.built) hasty.zero

theorem Hasty.lagrangeMax : path.lagrangeMax = 1 := hasty.model.lagrangeMax hasty.gradient

theorem Hasty.attempt : ∃ trial : Trial ℝ,
    let expanded := (path.screen 1 (1 / 2)).expanded (1 / 2) trial.violators
    0 ∈ trial.violators ∧
    Trace path [.mark [], .mark trial.violators,
      .record ⟨.expansion, some (1 / 2), .expansion trial.violators.length⟩] expanded ∧
    path.attempt 1 (1 / 2) path.options.solve = (.error (.notConverged 1), expanded) ∧
    (logged (path.attemptEvents 1 (1 / 2) path.options.solve)).map (·.kind) = [.expansion] := by
  have fresh := build_fresh hasty.built
  have positive : (0 : ℝ) < 1 / 2 := one_half_pos
  obtain ⟨-, trial, tried, missed, failed, clean, trace⟩ := hasty.model.expands
    (.build hasty.built) fresh hasty.slope hasty.gradient positive (by norm_num) path.options.solve
  let expanded := (path.screen 1 (1 / 2)).expanded (1 / 2) trial.violators
  have model : UnitModel expanded := hasty.model.sameModel trace.sameModel
  have only : expanded.candidates = [0] := candidates_of_single model.groups
    ((hasty.model.listed_iff fresh trace).2
      ⟨rfl, _, List.mem_cons_of_mem _ (List.mem_cons_self ..), missed⟩)
  have stopped : expanded.trial (1 / 2) path.options.solve = .error (.notConverged 1) := by
    have settings := hasty.settings
    have step : expanded.step = 1 := hasty.step
    obtain ⟨assembled, -, run⟩ := model.solveSubproblem hasty.zero positive path.options.solve
    rw [trial_eq_error, only, run, hasty_unsettled]
    · rfl
    · rw [request, settings, step]
      rfl
    · rw [request, settings]
    · rw [request, settings]
  refine ⟨trial, missed, trace, ?_, ?_⟩
  · rw [Path.attempt, hasty.retries, clean.rounds tried failed]
    unfold rounds
    rw [stopped]
  · rw [attemptEvents, hasty.retries, logged_mark]
    rw [clean.roundEvents tried failed, logged_solve, logged_mark, logged_record]
    unfold roundEvents
    rw [stopped]
    rfl

theorem Hasty.relaxes (policy : path.options.nonConvergence = .relax)
    (allowed : path.options.maxRelaxations = 2) : ∃ step reached,
      path.fitValue 1 (1 / 2) = (.ok step, reached) ∧
      reached.log.entries.map (·.kind) = [.expansion, .relaxation] := by
  obtain ⟨first, missed, trace, attempted, -⟩ := hasty.attempt
  let relaxed := relax path.options.solve
  let entry : Diagnostic ℝ :=
    ⟨.relaxation, some (1 / 2), .relaxation relaxed.tolerance relaxed.maxIterations⟩
  let retried := ((path.screen 1 (1 / 2)).expanded (1 / 2) first.violators).apply (.record entry)
  have again : Trace path _ retried := trace.append (.single (.record entry))
  have unmarked : retried.screen 1 (1 / 2) = retried.markEverActive [] :=
    (hasty.model.sameModel again.sameModel).screen hasty.slope
      ((again.sameFit rfl).gradient.trans hasty.gradient) le_rfl _
  have marks : Trace retried [.mark []] (retried.screen 1 (1 / 2)) :=
    unmarked ▸ Trace.single (.mark [])
  have begins : UnitStart (retried.screen 1 (1 / 2)) relaxed := by
    have settings : relaxed = ⟨1 / 10 * 10, 2, none⟩ := congrArg relax hasty.settings
    refine hasty.model.begins (build_fresh hasty.built) hasty.zero hasty.step (again.append marks) rfl ?_
      missed ?_ ?_ ?_
    · exact List.mem_cons_of_mem _ (List.mem_cons_self ..)
    · rw [settings]
      exact one_le_two
    · rw [settings]
    · rw [settings]
      norm_num
  obtain ⟨second, tried, passed, -⟩ := begins.trial one_half_pos one_half_lt_one
  have finished : retried.attempt 1 (1 / 2) relaxed =
      (.ok ((retried.screen 1 (1 / 2)).certifiedStep (1 / 2) 1 second),
        (retried.screen 1 (1 / 2)).commit second) := by
    unfold Path.attempt rounds
    rw [tried]
    simp only [passed, if_true]
  have valued := (attempts_of_relax attempted policy 1).trans (attempts_of_ok finished 1)
  refine ⟨_, _, Eq.trans (by rw [fitValue, allowed]) valued, ?_⟩
  change (path.log.entries ++ [_] ++ [_]).map _ = _
  rw [hasty.silent]
  rfl

theorem Hasty.skips (policy : path.options.nonConvergence = .skip) : ∃ step reached,
    path.fitValue 1 (1 / 2) = (.ok step, reached) ∧
      reached.log.entries.map (·.kind) = [.expansion, .skip] := by
  obtain ⟨first, -, -, attempted, -⟩ := hasty.attempt
  refine ⟨_, _, attempts_of_skip attempted policy _, ?_⟩
  change (path.log.entries ++ [_] ++ [_]).map _ = _
  rw [hasty.silent]
  rfl

theorem Hasty.run {reached : Path ℝ} {step : PathStep ℝ}
    (valued : path.fitValue 1 (1 / 2) = (.ok step, reached)) :
    path.visits (some [1 / 2]) = [⟨path, 1, 1 / 2⟩] ∧
      ∃ result, path.fit (some [1 / 2]) = (.ok result, reached) := by
  have visited := visits_of_single (path.sequence_single one_half_pos)
  have started : path.fitValue path.lagrangeMax (1 / 2) = (.ok step, reached) := by
    rw [hasty.lagrangeMax, valued]
  rw [hasty.lagrangeMax] at visited
  exact ⟨visited, _, fit_of_value one_half_pos started⟩

end

omit [Scalar α] in
theorem countP_kind (kind : DiagnosticKind) (entries : List (Diagnostic α)) :
    entries.countP (·.kind == kind) = (entries.map (·.kind)).countP (· == kind) := by
  rw [List.countP_map]
  rfl

/-- A coefficient that screening missed becomes a candidate, for which the solver then fails. With one
policy the value is attempted again, with the other one it is skipped. -/
theorem fit_accounting_hasty :
    (let path : Path ℝ := hastyPath .relax
      let visit : Visit ℝ := ⟨path, 1, 1 / 2⟩
      Path.build unitLoss unitDesign #[1] #[0] none path.options = .ok path ∧ Reaches path path ∧
        path.visits (some [1 / 2]) = [visit] ∧ visit.Accounted ∧
        visit.logged.map (·.kind) = [.expansion, .relaxation] ∧ visit.attempts.length = 2 ∧
        visit.first.Accounted ∧ visit.first.outcome.1 = .error (.notConverged 1) ∧
        visit.first.events.countP Event.isSolve = 2 ∧
        ∃ result, (path.fit (some [1 / 2])).1 = .ok result ∧ result.skipped = 0) ∧
    (let path : Path ℝ := hastyPath .skip
      let visit : Visit ℝ := ⟨path, 1, 1 / 2⟩
      Path.build unitLoss unitDesign #[1] #[0] none path.options = .ok path ∧ Reaches path path ∧
        path.visits (some [1 / 2]) = [visit] ∧ visit.Accounted ∧
        visit.logged.map (·.kind) = [.expansion, .skip] ∧ visit.attempts.length = 1 ∧
        ∃ result, (path.fit (some [1 / 2])).1 = .ok result ∧ result.skipped = 1) := by
  have accounts : ∀ (path reached : Path ℝ) (step : PathStep ℝ) (kinds : List DiagnosticKind)
      (visit : Visit ℝ), visit = ⟨path, 1, 1 / 2⟩ → Hasty path →
      path.fitValue 1 (1 / 2) = (.ok step, reached) → reached.log.entries.map (·.kind) = kinds →
        path.visits (some [1 / 2]) = [visit] ∧ visit.Accounted ∧ visit.logged.map (·.kind) = kinds ∧
          visit.attempts.length = kinds.countP (· == .relaxation) + 1 ∧ visit.first.Accounted ∧
          visit.first.events.countP Event.isSolve = visit.first.logged.length + 1 ∧
          ∃ result, (path.fit (some [1 / 2])).1 = .ok result ∧
            result.skipped = kinds.countP (· == .skip) := by
    intro path reached step kinds visit named hasty valued last
    obtain ⟨visited, result, run⟩ := hasty.run valued
    obtain ⟨visits, log, -, -, successful⟩ := fit_accounting hasty.built .start (some [1 / 2])
    rw [← named] at visited
    rw [visited] at visits log successful
    rw [run] at log successful ⊢
    obtain ⟨-, -, skips⟩ := successful result rfl
    obtain ⟨-, accounted, attempts⟩ := visits visit (List.mem_singleton_self _)
    obtain ⟨-, -, -, first⟩ := attempts _ visit.first_mem
    rw [List.flatMap_singleton] at log skips
    rw [hasty.silent, List.nil_append] at log
    have kinds : visit.logged.map (·.kind) = kinds := by rw [← log, last]
    refine ⟨visited, accounted, kinds, ?_, first, first.solves, result, rfl, ?_⟩
    · have counted := countP_kind .relaxation visit.logged
      rw [kinds] at counted
      rw [← accounted.relaxations, ← counted]
      rfl
    · rw [← skips, countP_kind, kinds]
  have expands : ∀ path : Path ℝ, Hasty path → ∀ visit : Visit ℝ, visit = ⟨path, 1, 1 / 2⟩ →
      visit.first.outcome.1 = .error (.notConverged 1) ∧ visit.first.logged.length = 1 := by
    rintro path hasty _ rfl
    obtain ⟨trial, -, -, attempted, expanded⟩ := hasty.attempt
    have once := congrArg List.length expanded
    rw [List.length_map] at once
    exact ⟨congrArg Prod.fst attempted, once⟩
  constructor
  · have hasty := hasty .relax
    obtain ⟨step, reached, valued, kinds⟩ := hasty.relaxes rfl rfl
    obtain ⟨visited, accounted, logged, attempts, first, solves, finished⟩ :=
      accounts _ _ _ _ _ rfl hasty valued kinds
    obtain ⟨failed, once⟩ := expands _ hasty _ rfl
    rw [once] at solves
    exact ⟨hasty.built, .start, visited, accounted, logged, attempts, first, failed, solves, finished⟩
  · have hasty := hasty .skip
    obtain ⟨step, reached, valued, kinds⟩ := hasty.skips rfl
    obtain ⟨visited, accounted, logged, attempts, -, -, finished⟩ :=
      accounts _ _ _ _ _ rfl hasty valued kinds
    exact ⟨hasty.built, .start, visited, accounted, logged, attempts, finished⟩

end Path

end GroupLasso
