import GroupLasso.Proofs.Exact
import GroupLasso.Proofs.Support

/-!
The rounds at one Lagrange value when every restricted problem is solved exactly. Groups that fail the
checks are then never candidates, so that each round adds at least one group and none tightens the
tolerance; the rounds end after at most one for every group outside the first candidates, and one.
-/

namespace GroupLasso

open Scalar

namespace Path

structure Ready (path : Path ℝ) : Prop where
  wellFormed : path.WellFormed
  tolerance_pos : 0 < path.options.kktTolerance
  length : path.everActiveMask.length = path.groups

section
variable {path : Path ℝ} {lagrange : ℝ} {options : SolveOptions ℝ}

theorem Reachable.ready (reachable : Reachable path) : path.Ready := by
  obtain ⟨start, events, history⟩ := reachable.history
  obtain ⟨_, _, _, _, _, _, built⟩ := history.built
  have fresh := build_fresh built
  have same := history.trace.sameModel
  refine ⟨reachable.wellFormed, ?_, (history.trace.supported fresh.supported).length⟩
  rw [same.options]
  exact fresh.options.kktTolerance.1

theorem Ready.apply (ready : path.Ready) (event : Event ℝ) : (path.apply event).Ready := by
  have same := sameModel_apply path event
  refine ⟨same.wellFormed ready.wellFormed, ?_, length_apply ready.length event⟩
  rw [same.options]
  exact ready.tolerance_pos

theorem Trace.ready {reached : Path ℝ} {events : List (Event ℝ)} (trace : Trace path events reached)
    (ready : path.Ready) : reached.Ready :=
  trace.keeps (fun _ event ready _ => ready.apply event) ready

def outside {α : Type} [Scalar α] (path : Path α) : Finset Nat :=
  (Finset.range path.groups).filter (· ∉ path.candidates)

theorem mem_outside {α : Type} [Scalar α] {path : Path α} {group : Nat} :
    group ∈ path.outside ↔ group < path.groups ∧ group ∉ path.candidates := by
  rw [outside, Finset.mem_filter, Finset.mem_range]

theorem mem_candidates_mark {α : Type} [Scalar α] {path : Path α}
    (length : path.everActiveMask.length = path.groups) {groups : List Nat} {group : Nat} :
    group ∈ (path.markEverActive groups).candidates ↔
      group ∈ path.candidates ∨ group ∈ groups ∧ group < path.groups := by
  have marked : (path.markEverActive groups).everActiveMask.length =
      (path.markEverActive groups).groups := length_apply length (.mark groups)
  have active : (path.markEverActive groups).everActiveMask.contains group = true ↔
      path.everActiveMask.contains group = true ∨ group ∈ groups ∧ group < path.groups :=
    length ▸ Mask.contains_insertAll
  rw [mem_candidates marked, mem_candidates length, active, or_right_comm]
  rfl

theorem outside_mark {α : Type} [Scalar α] {path : Path α}
    (length : path.everActiveMask.length = path.groups) {groups : List Nat} {group : Nat}
    (listed : group ∈ groups) (new : group ∈ path.outside) :
    (path.markEverActive groups).outside.card < path.outside.card := by
  obtain ⟨bound, -⟩ := mem_outside.1 new
  apply Finset.card_lt_card
  refine (Finset.ssubset_iff_of_subset ?_).2 ⟨group, new, ?_⟩
  · intro other left
    obtain ⟨otherBound, unlisted⟩ := mem_outside.1 left
    refine mem_outside.2 ⟨otherBound, fun member => unlisted ?_⟩
    exact (mem_candidates_mark length).2 (.inl member)
  · intro left
    exact (mem_outside.1 left).2 ((mem_candidates_mark length).2 (.inr ⟨listed, bound⟩))

/-- What a trial at an exactly solved problem gives: nothing but groups outside the candidates, in
range, can fail its checks. -/
structure Clean (path : Path ℝ) (trial : Trial ℝ) : Prop where
  members : trial.sub.candidates = Mask.ofIndices path.candidates path.groups
  violators : ∀ group ∈ trial.violators, group ∈ path.outside

theorem Ready.clean (ready : path.Ready) (positive : 0 < lagrange)
    (exactly : path.SolvesExactly lagrange options) :
    ∃ trial, path.trial lagrange options = .ok trial ∧ path.Clean trial := by
  obtain ⟨trial, tried, members, violators⟩ :=
    trial_of_exact ready.wellFormed ready.tolerance_pos positive exactly
  exact ⟨trial, tried, members, fun group member => mem_outside.2 (violators group member)⟩

theorem Clean.newcomers {trial : Trial ℝ} (clean : path.Clean trial) :
    trial.newcomers = trial.violators := by
  apply List.filter_eq_self.2
  intro group member
  obtain ⟨-, unlisted⟩ := mem_outside.1 (clean.violators group member)
  have absent : ¬ trial.sub.candidates.contains group = true := by
    rw [clean.members, Mask.contains_ofIndices]
    exact fun listed => unlisted listed.1
  rw [Bool.not_eq_true']
  exact Bool.not_eq_true _ ▸ absent

def expanded (path : Path ℝ) (lagrange : ℝ) (groups : List Nat) : Path ℝ :=
  (path.markEverActive groups).record .expansion (some lagrange) (.expansion groups.length)

theorem Clean.respond {trial : Trial ℝ} (clean : path.Clean trial)
    (failed : ¬ trial.violators.isEmpty) :
    path.respond lagrange options trial = (path.expanded lagrange trial.violators, options) ∧
      path.responseEvents lagrange options trial = [.mark trial.violators,
        .record ⟨.expansion, some lagrange, .expansion trial.violators.length⟩] := by
  unfold Path.respond responseEvents
  rw [clean.newcomers, if_neg failed, if_neg failed]
  exact ⟨rfl, rfl⟩

theorem Clean.rounds {trial : Trial ℝ} (clean : path.Clean trial)
    (tried : path.trial lagrange options = .ok trial) (failed : ¬ trial.violators.isEmpty)
    (retries round : Nat) : Path.rounds lagrange (retries + 1) round options path =
      Path.rounds lagrange retries (round + 1) options
        (path.expanded lagrange trial.violators) := by
  rw [Path.rounds, tried]
  simp only [if_neg failed, (clean.respond failed).1]

theorem Clean.roundEvents {trial : Trial ℝ} (clean : path.Clean trial)
    (tried : path.trial lagrange options = .ok trial) (failed : ¬ trial.violators.isEmpty)
    (retries : Nat) : Path.roundEvents lagrange (retries + 1) options path =
      .solve path lagrange options :: .mark trial.violators ::
        .record ⟨.expansion, some lagrange, .expansion trial.violators.length⟩ ::
          Path.roundEvents lagrange retries options (path.expanded lagrange trial.violators) := by
  rw [roundEvents_retried tried failed retries _ (clean.respond failed).1, (clean.respond failed).2]
  rfl

/-! All rounds. -/

/-- What the rounds at one Lagrange value come to when screening is only ever widened. -/
structure Expands (path : Path ℝ) (retries : Nat) (events : List (Event ℝ))
    (result : Except (Failure ℝ) (PathStep ℝ) × Path ℝ) : Prop where
  violators : ∀ receiver lagrange options trial, .solve receiver lagrange options ∈ events →
    receiver.trial lagrange options = .ok trial → ∀ group ∈ trial.violators, group ∉ receiver.candidates
  log : ∃ added, result.2.log.entries = path.log.entries ++ added ∧
    ∀ entry ∈ added, entry.kind = .expansion
  solves : events.countP Event.isSolve ≤ 1 + path.outside.card
  finishes : path.outside.card ≤ retries → ∃ step, result.1 = .ok step

section
variable {retries : Nat} {trial : Trial ℝ}

theorem Clean.solved {events : List (Event ℝ)} (clean : path.Clean trial)
    (tried : path.trial lagrange options = .ok trial)
    (later : ∀ receiver lagrange options trial, .solve receiver lagrange options ∈ events →
      receiver.trial lagrange options = .ok trial →
      ∀ group ∈ trial.violators, group ∉ receiver.candidates)
    (receiver : Path ℝ) (lagrange' : ℝ) (options' : SolveOptions ℝ) (trial' : Trial ℝ)
    (asked : .solve receiver lagrange' options' ∈ .solve path lagrange options :: events)
    (found : receiver.trial lagrange' options' = .ok trial') :
    ∀ group ∈ trial'.violators, group ∉ receiver.candidates := by
  rcases List.mem_cons.1 asked with same | asked
  · cases same
    obtain rfl := Except.ok.inj (tried.symm.trans found)
    exact fun group member => (mem_outside.1 (clean.violators group member)).2
  · exact later receiver lagrange' options' trial' asked found

theorem Clean.passed (clean : path.Clean trial) (tried : path.trial lagrange options = .ok trial)
    (round retries : Nat) :
    path.Expands retries [.solve path lagrange options, .commit lagrange trial]
      (.ok (path.certifiedStep lagrange round trial), path.commit trial) := by
  refine ⟨clean.solved tried ?_, ⟨[], ?_, nofun⟩, ?_, ?_⟩
  · intro receiver lagrange options trial asked
    cases asked with
    | tail _ none => cases none
  · exact (List.append_nil _).symm
  · simp [List.countP_cons, Event.isSolve]
  · intro _
    exact ⟨_, rfl⟩

theorem Clean.stopped (clean : path.Clean trial) (tried : path.trial lagrange options = .ok trial)
    (failed : ¬ trial.violators.isEmpty) (failure : Failure ℝ) :
    path.Expands 0 [.solve path lagrange options] (.error failure, path) := by
  obtain ⟨group, member⟩ := List.exists_mem_of_ne_nil _ (mt List.isEmpty_iff.2 failed)
  have some : 0 < path.outside.card := Finset.card_pos.2 ⟨group, clean.violators group member⟩
  refine ⟨clean.solved tried ?_, ⟨[], (List.append_nil _).symm, nofun⟩, ?_, ?_⟩
  · intro receiver lagrange options trial asked
    cases asked
  · simp [List.countP_cons, Event.isSolve]
  · intro enough
    omega

theorem Clean.retried {events : List (Event ℝ)}
    {result : Except (Failure ℝ) (PathStep ℝ) × Path ℝ} (ready : path.Ready)
    (clean : path.Clean trial) (tried : path.trial lagrange options = .ok trial)
    (failed : ¬ trial.violators.isEmpty)
    (later : (path.expanded lagrange trial.violators).Expands retries events result) :
    path.Expands (retries + 1) (.solve path lagrange options ::
      (path.responseEvents lagrange options trial ++ events)) result := by
  obtain ⟨group, member⟩ := List.exists_mem_of_ne_nil _ (mt List.isEmpty_iff.2 failed)
  have fewer : (path.expanded lagrange trial.violators).outside.card < path.outside.card :=
    outside_mark ready.length member (clean.violators group member)
  rw [(clean.respond failed).2]
  refine ⟨clean.solved tried ?_, ?_, ?_, ?_⟩
  · intro receiver lagrange' options' trial' asked
    apply later.violators receiver lagrange' options' trial'
    simpa using asked
  · obtain ⟨added, entries, kinds⟩ := later.log
    refine ⟨⟨.expansion, some lagrange, .expansion trial.violators.length⟩ :: added, ?_, ?_⟩
    · rw [entries]
      exact (List.append_assoc _ [_] _)
    · exact List.forall_mem_cons.2 ⟨rfl, kinds⟩
  · have solves := later.solves
    simp only [List.countP_cons, List.cons_append, List.nil_append, Event.isSolve, if_true,
      Bool.false_eq_true, if_false]
    omega
  · intro enough
    exact later.finishes (by omega)

end

theorem rounds_expands (positive : 0 < lagrange) (retries round : Nat) (ready : path.Ready)
    (exactly : ∀ receiver lagrange' options',
      .solve receiver lagrange' options' ∈ roundEvents lagrange retries options path →
      receiver.SolvesExactly lagrange' options') :
    path.Expands retries (roundEvents lagrange retries options path)
      (rounds lagrange retries round options path) := by
  fun_induction rounds lagrange retries round options path with
  | case1 retries round options path failure tried =>
      obtain ⟨_, found, -⟩ := ready.clean positive (exactly _ _ _ (solve_mem_rounds ..))
      rw [tried] at found
      cases found
  | case2 retries round options path trial tried passed =>
      obtain ⟨_, found, clean⟩ := ready.clean positive (exactly _ _ _ (solve_mem_rounds ..))
      obtain rfl := Except.ok.inj (tried.symm.trans found)
      rw [roundEvents_passed tried passed]
      exact clean.passed tried round retries
  | case3 round options path trial tried failed =>
      obtain ⟨_, found, clean⟩ := ready.clean positive (exactly _ _ _ (solve_mem_rounds ..))
      obtain rfl := Except.ok.inj (tried.symm.trans found)
      rw [roundEvents_stopped tried failed]
      exact clean.stopped tried failed _
  | case4 round options path trial tried failed retries response ih =>
      obtain ⟨_, found, clean⟩ := ready.clean positive (exactly _ _ _ (solve_mem_rounds ..))
      obtain rfl := Except.ok.inj (tried.symm.trans found)
      rw [roundEvents_retried tried failed retries response rfl] at exactly ⊢
      have answer : response = (path.expanded lagrange trial.violators, options) :=
        (clean.respond failed).1
      have nextReady : response.1.Ready := by
        rw [answer]
        exact (ready.apply (.mark trial.violators)).apply
          (.record ⟨.expansion, some lagrange, .expansion trial.violators.length⟩)
      have later := ih nextReady fun receiver lagrange' options' asked =>
        exactly receiver lagrange' options' (List.mem_cons_of_mem _ (List.mem_append_right _ asked))
      rw [answer] at later ⊢
      exact clean.retried ready tried failed later

/-- At any point of a run, and whatever screening selects there: if every restricted problem of an
attempt is solved exactly, no candidate ever fails the checks, the log only gains expansions, and there
is at most one round for every group outside the first candidates and one more. If so many retries are
allowed, the attempt succeeds. -/
theorem attempt_expands {base : Path ℝ} {before : List (Event ℝ)} {current next : ℝ}
    (reachable : Reachable base) (trace : Trace base before path) (positive : 0 < next)
    (exactly : ∀ receiver lagrange' options',
      .solve receiver lagrange' options' ∈ path.attemptEvents current next options →
      receiver.SolvesExactly lagrange' options') :
    let outside := (path.screen current next).outside
    (∀ receiver lagrange' options' trial,
      .solve receiver lagrange' options' ∈ path.attemptEvents current next options →
      receiver.trial lagrange' options' = .ok trial →
      ∀ group ∈ trial.violators, group ∉ receiver.candidates) ∧
    (∃ added, (path.attempt current next options).2.log.entries = path.log.entries ++ added ∧
      ∀ entry ∈ added, entry.kind = .expansion) ∧
    (path.attemptEvents current next options).countP Event.isSolve ≤ 1 + outside.card ∧
    (outside.card ≤ path.options.maxKktRetries → ∃ step,
      (path.attempt current next options).1 = .ok step ∧ step.rounds ≤ 1 + outside.card) := by
  intro outside
  have ready := trace.ready reachable.ready
  obtain ⟨violators, log, solves, finishes⟩ :=
    rounds_expands positive path.options.maxKktRetries 1 (ready.apply (.mark _))
      fun receiver lagrange' options' asked =>
        exactly receiver lagrange' options' (List.mem_cons_of_mem _ asked)
  have bounded : (path.attemptEvents current next options).countP Event.isSolve ≤ 1 + outside.card := by
    rw [attemptEvents, List.countP_cons_of_neg Bool.false_ne_true]
    exact solves
  refine ⟨?_, log, bounded, ?_⟩
  · intro receiver lagrange' options' trial asked
    apply violators receiver lagrange' options' trial
    rcases List.mem_cons.1 asked with none | asked
    · cases none
    · exact asked
  · intro enough
    obtain ⟨step, finished⟩ := finishes enough
    exact ⟨step, finished, (attempt_solves finished).trans_le bounded⟩

theorem UnitModel.expands (model : UnitModel path) (reachable : Reachable path) (fresh : Fresh path)
    (slope : path.options.slope = -1) (gradient : path.gradient = unitDescent)
    (positive : 0 < lagrange) (below : lagrange ≤ 100 / 101) (options : SolveOptions ℝ) :
    let screened := path.screen 1 lagrange
    screened.candidates = [] ∧ ∃ trial, screened.trial lagrange options = .ok trial ∧
      0 ∈ trial.violators ∧ ¬ trial.violators.isEmpty ∧ screened.Clean trial ∧
      Trace path [.mark [], .mark trial.violators,
          .record ⟨.expansion, some lagrange, .expansion trial.violators.length⟩]
        (screened.expanded lagrange trial.violators) := by
  intro screened
  have marked : screened = path.markEverActive [] := model.screen slope gradient le_rfl _
  have trace : Trace path [.mark []] screened := marked ▸ .single (.mark [])
  have ready : screened.Ready := trace.ready reachable.ready
  have none : screened.candidates = [] := model.unmarked fresh trace (by simp)
  obtain ⟨trial, tried, clean⟩ := ready.clean positive
    (solvesExactly_of_no_candidates ready.wellFormed positive.le none options)
  have missed : 0 ∈ trial.violators :=
    ((model.sameModel trace.sameModel).missed none positive tried).2 below
  refine ⟨none, trial, tried, missed, ?_, clean,
    trace.append (.next (.mark trial.violators) (.single (.record _)))⟩
  rw [List.isEmpty_iff]
  exact List.ne_nil_of_mem missed

theorem unit_expands (positive : 0 < lagrange) (below : lagrange ≤ 100 / 101) :
    let path : Path ℝ := unitPath 1
    let options := path.options.solve
    let screened := path.screen 1 lagrange
    screened.candidates = [] ∧ ∃ trial second : Trial ℝ,
      let expanded := screened.expanded lagrange trial.violators
      UnitStart expanded options ∧ second.solution = (Mat.ofFn 1 1 fun _ _ => 1 - lagrange) ∧
      path.attempt 1 lagrange options =
        (.ok (expanded.certifiedStep lagrange 2 second), expanded.commit second) ∧
      roundEvents lagrange 1 options screened = [.solve screened lagrange options,
        .mark trial.violators,
        .record ⟨.expansion, some lagrange, .expansion trial.violators.length⟩,
        .solve expanded lagrange options, .commit lagrange second] := by
  intro path options screened
  have small : lagrange < 1 := below.trans_lt (by norm_num)
  obtain ⟨none, trial, tried, missed, failed, clean, trace⟩ := (unit_model 1).expands
    (.build (build_unit 1)) (unit_fresh 1) rfl (unit_start_gradient 1) positive below options
  have begins : UnitStart (screened.expanded lagrange trial.violators) options := by
    refine unit_begins trace rfl ?_ missed
    exact List.mem_cons_of_mem _ (List.mem_cons_self ..)
  obtain ⟨second, retried, passed, solution⟩ := begins.trial positive small
  refine ⟨none, trial, second, begins, solution, ?_, ?_⟩
  · change rounds lagrange 1 1 options screened = _
    rw [clean.rounds tried failed]
    unfold rounds
    rw [retried]
    simp only [passed, if_true]
    rfl
  · rw [clean.roundEvents tried failed, roundEvents_passed retried passed]

theorem attempt_expands_unit :
    let path : Path ℝ := unitPath 1
    let screened := path.screen 1 (1 / 2)
    let events := path.attemptEvents 1 (1 / 2) path.options.solve
    Reachable path ∧ Trace path [] path ∧ (0 : ℝ) < 1 / 2 ∧
      (∀ receiver lagrange' options', .solve receiver lagrange' options' ∈ events →
        receiver.SolvesExactly lagrange' options') ∧
      screened.outside = {0} ∧ events.countP Event.isSolve = 2 ∧
      ∃ step, (path.attempt 1 (1 / 2) path.options.solve).1 = .ok step ∧ step.rounds ≤ 2 := by
  intro path screened events
  have positive : (0 : ℝ) < 1 / 2 := one_half_pos
  have reachable : Reachable path := .build (build_unit 1)
  have same : SameModel path screened := ⟨rfl, rfl, rfl, rfl, rfl⟩
  have model : UnitModel screened := (unit_model 1).sameModel same
  obtain ⟨none, trial, second, begins, -, -, rounds⟩ := unit_expands positive (by norm_num)
  have missing := solvesExactly_of_no_candidates model.wellFormed positive.le none path.options.solve
  have exactly : ∀ receiver lagrange' options', .solve receiver lagrange' options' ∈ events →
      receiver.SolvesExactly lagrange' options' := by
    intro receiver lagrange' options' asked
    rcases List.mem_cons.1 asked with first | asked
    · cases first
    · rw [show path.options.maxKktRetries = 1 from rfl, rounds] at asked
      simp only [List.mem_cons, Event.solve.injEq, reduceCtorEq, List.not_mem_nil, false_or,
        or_false] at asked
      rcases asked with ⟨firstPath, firstValue, firstOptions⟩ | ⟨nextPath, nextValue, nextOptions⟩
      · rw [firstPath, firstValue, firstOptions]
        exact missing
      · rw [nextPath, nextValue, nextOptions]
        exact begins.solvesExactly positive one_half_lt_one
  have outside : screened.outside = {0} := by
    rw [Path.outside, none, model.groups]
    decide
  have solves : events.countP Event.isSolve = 2 := by
    change (Event.mark _ :: roundEvents (1 / 2) 1 path.options.solve screened).countP Event.isSolve = 2
    rw [rounds]
    rfl
  have card : screened.outside.card = 1 := by rw [outside, Finset.card_singleton]
  obtain ⟨-, -, -, finishes⟩ := attempt_expands reachable (.done path) positive exactly
  obtain ⟨step, finished, bound⟩ := finishes (card.trans_le (by decide))
  have limit : 1 + screened.outside.card = 2 := by rw [card]
  exact ⟨reachable, .done path, positive, exactly, outside, solves, step, finished,
    bound.trans_eq limit⟩

end

end Path

end GroupLasso
