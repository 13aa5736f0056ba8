import GroupLasso.Proofs.Commits

/-!
What a run works through: the Lagrange values up to the one at which it fails, and the attempts at each.
The failure of a run is that of its last attempt, and the failure of an attempt is that of a trial, or
that its rounds have run out.
-/

namespace GroupLasso

open Scalar Failure

namespace Path

variable {α : Type} [Scalar α]

theorem sameModel_rounds (lagrange : α) (retries round : Nat) (options : SolveOptions α)
    (path : Path α) : SameModel path (rounds lagrange retries round options path).2 := by
  apply rounds_induction (motive := fun path _ result => SameModel path result.2)
  · intro path options failure
    exact .refl path
  · intro path options round trial _ _
    exact ⟨rfl, rfl, rfl, rfl, rfl⟩
  · intro path options trial events result _ _ later
    exact (sameModel_respond path lagrange options trial).1.trans later

theorem sameModel_attempt {path middle : Path α} {current next : α} {options : SolveOptions α}
    {outcome : Except (Failure α) (PathStep α)}
    (attempted : path.attempt current next options = (outcome, middle)) : SameModel path middle := by
  have screened : SameModel path (path.screen current next) := ⟨rfl, rfl, rfl, rfl, rfl⟩
  have solved := sameModel_rounds next path.options.maxKktRetries 1 options (path.screen current next)
  rw [show rounds next path.options.maxKktRetries 1 options (path.screen current next) = _
    from attempted] at solved
  exact screened.trans solved

theorem rounds_converged {lagrange : α} {retries round : Nat} {options : SolveOptions α}
    {path : Path α} {step : PathStep α}
    (finished : (rounds lagrange retries round options path).1 = .ok step) :
    step.status = .converged := by
  fun_induction rounds lagrange retries round options path with
  | case1 => cases finished
  | case2 =>
      cases finished
      rfl
  | case3 => cases finished
  | case4 round options path trial tried failed retries response ih => exact ih finished

theorem rounds_error {lagrange : α} {retries round : Nat} {options : SolveOptions α} {path : Path α}
    {failure : Failure α}
    (failed : (rounds lagrange retries round options path).1 = .error failure) :
    let events := roundEvents lagrange retries options path
    (∃ receiver options, .solve receiver lagrange options ∈ events ∧
      receiver.trial lagrange options = .error failure) ∨
    failure = .kktRetriesExceeded lagrange path.options.maxKktRetries ∧
      events.countP Event.isSolve = retries + 1 ∧
      ∀ receiver value options, .solve receiver value options ∈ events →
        ∃ trial, receiver.trial value options = .ok trial ∧ trial.violators ≠ [] := by
  fun_induction rounds lagrange retries round options path with
  | case1 retries round options path fault tried =>
      cases failed
      exact .inl ⟨path, options, solve_mem_rounds path lagrange retries options, tried⟩
  | case2 => cases failed
  | case3 round options path trial tried violated =>
      cases failed
      rw [roundEvents_stopped tried violated]
      refine .inr ⟨rfl, rfl, fun receiver value options asked => ?_⟩
      cases List.mem_singleton.1 asked
      exact ⟨trial, tried, mt List.isEmpty_iff.2 violated⟩
  | case4 round options path trial tried violated retries response ih =>
      have same := (sameModel_respond path lagrange options trial).1
      rw [roundEvents_retried tried violated retries response rfl]
      rcases ih failed with ⟨receiver, settings, asked, raised⟩ | ⟨exhausted, solves, trials⟩
      · exact .inl ⟨receiver, settings, List.mem_cons_of_mem _ (List.mem_append_right _ asked),
          raised⟩
      · refine .inr ⟨?_, ?_, fun receiver value settings asked => ?_⟩
        · rw [exhausted, same.options]
        · rw [List.countP_cons_of_pos rfl, List.countP_append, solves_response, solves]
          omega
        · rcases List.mem_cons.1 asked with first | asked
          · cases first
            exact ⟨trial, tried, mt List.isEmpty_iff.2 violated⟩
          · rcases List.mem_append.1 asked with answer | later
            · have none := solves_response path lagrange options trial
              rw [List.countP_eq_zero] at none
              exact absurd rfl (none _ answer)
            · exact trials receiver value settings later

theorem attempt_error {attempt : Attempt α} {failure : Failure α}
    (failed : attempt.outcome.1 = .error failure) :
    (∃ receiver options, .solve receiver attempt.next options ∈ attempt.events ∧
      receiver.trial attempt.next options = .error failure) ∨
    failure = .kktRetriesExceeded attempt.next attempt.path.options.maxKktRetries ∧
      attempt.events.countP Event.isSolve = attempt.path.options.maxKktRetries + 1 ∧
      ∀ receiver value options, .solve receiver value options ∈ attempt.events →
        ∃ trial, receiver.trial value options = .ok trial ∧ trial.violators ≠ [] := by
  rcases rounds_error failed with ⟨receiver, options, asked, raised⟩ | ⟨exhausted, solves, trials⟩
  · exact .inl ⟨receiver, options, List.mem_cons_of_mem _ asked, raised⟩
  · refine .inr ⟨exhausted, ?_, fun receiver value options asked => ?_⟩
    · rw [Attempt.events, attemptEvents, List.countP_cons_of_neg Bool.false_ne_true]
      exact solves
    · rcases List.mem_cons.1 asked with mark | asked
      · cases mark
      · exact trials receiver value options asked

section
variable {current next : α} {relaxations : Nat} {options : SolveOptions α} {path : Path α}
  {attempts : List (Attempt α)} {events : List (Event α)}
  {result : Except (Failure α) (PathStep α) × Path α}
  (tries : Tries current next relaxations options path attempts events result)

include tries

theorem Tries.error {failure : Failure α} (failed : result.1 = .error failure) :
    ∃ attempt ∈ attempts, attempt.outcome.1 = .error failure := by
  induction tries with
  | ended relaxations options path => exact ⟨_, List.mem_singleton_self _, failed⟩
  | skipped _ _ => cases failed
  | relaxed _ _ _ ih =>
      obtain ⟨attempt, listed, raised⟩ := ih failed
      exact ⟨attempt, List.mem_cons_of_mem _ listed, raised⟩

theorem Tries.subset {attempt : Attempt α} (listed : attempt ∈ attempts) :
    attempt.events ⊆ events := by
  induction tries with
  | ended relaxations options path =>
      cases List.mem_singleton.1 listed
      exact fun _ => id
  | skipped _ _ =>
      cases List.mem_singleton.1 listed
      exact List.subset_append_left _ _
  | relaxed _ _ _ ih =>
      rcases List.mem_cons.1 listed with rfl | later
      · exact List.subset_append_left _ _
      · exact fun event member => List.mem_append_right _ (List.mem_cons_of_mem _ (ih later member))

theorem Tries.reached (positive : IsFinitePos next) {attempt : Attempt α}
    (listed : attempt ∈ attempts) : attempt.current = current ∧ attempt.next = next ∧
      ∃ earlier, Trace path earlier attempt.path := by
  induction tries with
  | ended relaxations options path =>
      cases List.mem_singleton.1 listed
      exact ⟨rfl, rfl, [], .done path⟩
  | @skipped _ _ _ path _ _ _ =>
      cases List.mem_singleton.1 listed
      exact ⟨rfl, rfl, [], .done path⟩
  | @relaxed _ _ options path middle _ _ _ attempted _ _ ih =>
      rcases List.mem_cons.1 listed with rfl | later
      · exact ⟨rfl, rfl, [], .done path⟩
      · obtain ⟨fromCurrent, atNext, earlier, trace⟩ := ih later
        have first := attempt_trace positive path current options
        rw [attempted] at first
        exact ⟨fromCurrent, atNext, _, first.append (.next (.record _) trace)⟩

end

/-- One Lagrange value of a run: the path before it, and the value that it is screened from. -/
structure Visit (α : Type) where
  path : Path α
  current : α
  next : α

namespace Visit

def outcome (visit : Visit α) : Except (Failure α) (PathStep α) × Path α :=
  visit.path.fitValue visit.current visit.next

def events (visit : Visit α) : List (Event α) :=
  visit.path.valueEvents visit.current visit.next

def attempts (visit : Visit α) : List (Attempt α) :=
  attemptsMade visit.current visit.next visit.path.options.maxRelaxations visit.path.options.solve
    visit.path

theorem tries (visit : Visit α) : Tries visit.current visit.next visit.path.options.maxRelaxations
    visit.path.options.solve visit.path visit.attempts visit.events visit.outcome :=
  Path.tries ..

def first (visit : Visit α) : Attempt α :=
  ⟨visit.path, visit.current, visit.next, visit.path.options.solve⟩

theorem first_mem (visit : Visit α) : visit.first ∈ visit.attempts := by
  unfold attempts attemptsMade
  exact List.mem_cons_self ..

end Visit

def visitsMade : α → List α → Path α → List (Visit α)
  | _, [], _ => []
  | current, next :: rest, path =>
      ⟨path, current, next⟩ ::
        match path.fitValue current next with
        | (.error _, _) => []
        | (.ok step, path) => visitsMade (nextCurrent current next step) rest path

def visits (path : Path α) (given : Option (List α)) : List (Visit α) :=
  match path.sequence given with
  | .error _ => []
  | .ok values => visitsMade path.lagrangeMax values path

theorem visits_of_single {path : Path α} {given : Option (List α)} {value : α}
    (listed : path.sequence given = .ok [value]) :
    path.visits given = [⟨path, path.lagrangeMax, value⟩] := by
  simp only [visits, listed, visitsMade]
  cases path.fitValue path.lagrangeMax value with
  | mk outcome reached => cases outcome <;> rfl

/-- How a run over a sequence comes to its outcome: it ends with the values or with the first one that
fails. -/
inductive Works : α → List α → Path α → List (Visit α) → List (Event α) →
    Except (Failure α) (List (PathStep α)) × Path α → Prop where
  | done (current : α) (path : Path α) : Works current [] path [] [] (.ok [], path)
  | failed {current next : α} {rest : List α} {path middle : Path α} {failure : Failure α} :
      path.fitValue current next = (.error failure, middle) →
      Works current (next :: rest) path [⟨path, current, next⟩] (path.valueEvents current next)
        (.error failure, middle)
  | stepped {current next : α} {rest : List α} {path middle : Path α} {step : PathStep α}
      {visits : List (Visit α)} {events : List (Event α)}
      {result : Except (Failure α) (List (PathStep α)) × Path α} :
      path.fitValue current next = (.ok step, middle) →
      Works (nextCurrent current next step) rest middle visits events result →
      Works current (next :: rest) path (⟨path, current, next⟩ :: visits)
        (path.valueEvents current next ++ events) (result.1.map (step :: ·), result.2)

theorem works (current : α) (values : List α) (path : Path α) :
    Works current values path (visitsMade current values path) (valuesEvents current values path)
      (fitValues current values path) := by
  induction values generalizing current path with
  | nil => exact .done current path
  | cons next rest ih =>
      rw [fitValues_cons]
      unfold visitsMade valuesEvents
      cases outcome : path.fitValue current next with
      | mk result middle =>
          cases result with
          | error failure =>
              rw [List.append_nil]
              exact .failed outcome
          | ok step =>
              have later := ih (nextCurrent current next step) middle
              have combined := Works.stepped outcome later
              dsimp only
              cases remaining : fitValues (nextCurrent current next step) rest middle with
              | mk steps last =>
                  rw [remaining] at combined
                  cases steps <;> exact combined

section
variable {current : α} {values : List α} {path : Path α} {visits : List (Visit α)}
  {events : List (Event α)} {result : Except (Failure α) (List (PathStep α)) × Path α}
  (works : Works current values path visits events result)

include works

theorem Works.events_eq : events = visits.flatMap Visit.events := by
  induction works with
  | done current path => rfl
  | failed _ => simp [Visit.events]
  | stepped _ _ ih => rw [ih, List.flatMap_cons, Visit.events]

theorem Works.values_prefix : visits.map Visit.next <+: values := by
  induction works with
  | done current path => exact List.nil_prefix
  | failed _ => exact List.cons_prefix_cons.2 ⟨rfl, List.nil_prefix⟩
  | stepped _ _ ih => exact List.cons_prefix_cons.2 ⟨rfl, ih⟩

theorem Works.error {failure : Failure α} (failed : result.1 = .error failure) :
    ∃ visit ∈ visits, visit.outcome.1 = .error failure := by
  induction works with
  | done current path => cases failed
  | failed outcome =>
      cases failed
      exact ⟨_, List.mem_singleton_self _, congrArg Prod.fst outcome⟩
  | @stepped _ _ _ _ _ _ _ _ result _ _ ih =>
      obtain ⟨later, last⟩ := result
      cases later with
      | ok steps => cases failed
      | error fault =>
          cases failed
          obtain ⟨visit, listed, raised⟩ := ih rfl
          exact ⟨visit, List.mem_cons_of_mem _ listed, raised⟩

theorem Works.steps {steps : List (PathStep α)} (finished : result.1 = .ok steps) :
    visits.map Visit.next = values ∧ visits.map (·.outcome.1) = steps.map .ok := by
  induction works generalizing steps with
  | done current path =>
      cases finished
      exact ⟨rfl, rfl⟩
  | failed _ => cases finished
  | @stepped _ _ _ _ _ _ _ _ result outcome _ ih =>
      obtain ⟨later, last⟩ := result
      cases later with
      | error fault => cases finished
      | ok rest =>
          cases finished
          obtain ⟨values, outcomes⟩ := ih rfl
          refine ⟨congrArg _ values, ?_⟩
          rw [List.map_cons, List.map_cons, outcomes]
          exact congrArg (· :: _) (congrArg Prod.fst outcome)

theorem Works.reached (positive : ∀ lagrange ∈ values, IsFinitePos lagrange) {visit : Visit α}
    (listed : visit ∈ visits) :
    IsFinitePos visit.next ∧ ∃ earlier, Trace path earlier visit.path := by
  induction works with
  | done current path => cases listed
  | @failed _ _ _ path _ _ _ =>
      cases List.mem_singleton.1 listed
      exact ⟨positive _ (List.mem_cons_self ..), [], .done path⟩
  | @stepped current next _ path middle _ _ _ _ outcome _ ih =>
      obtain ⟨first, rest⟩ := List.forall_mem_cons.1 positive
      rcases List.mem_cons.1 listed with rfl | later
      · exact ⟨first, [], .done path⟩
      · obtain ⟨finitePos, earlier, trace⟩ := ih rest later
        have before := fitValue_trace first path current
        rw [outcome] at before
        exact ⟨finitePos, _, before.append trace⟩

end

/-! Whole runs. -/

section
variable {path : Path α} {given : Option (List α)}

theorem fit_works {values : List α} (listed : path.sequence given = .ok values) :
    ∃ result, Works path.lagrangeMax values path (path.visits given) (path.fitEvents given) result ∧
      path.fit given = (result.1.map fun steps =>
        ⟨path.lagrangeMax, steps, result.2.log.entries⟩, result.2) := by
  refine ⟨fitValues path.lagrangeMax values path, ?_, ?_⟩
  · rw [visits, fitEvents, listed]
    exact works path.lagrangeMax values path
  · rw [fit, listed]
    simp only
    cases fitValues path.lagrangeMax values path with
    | mk steps last => cases steps <;> rfl

theorem fitEvents_eq : path.fitEvents given = (path.visits given).flatMap Visit.events := by
  cases listed : path.sequence given with
  | error failure =>
      rw [visits, fitEvents, listed]
      rfl
  | ok values =>
      obtain ⟨result, works, -⟩ := fit_works listed
      exact works.events_eq

theorem visits_reached {visit : Visit α} (visited : visit ∈ path.visits given) :
    IsFinitePos visit.next ∧ ∃ earlier, Trace path earlier visit.path := by
  cases listed : path.sequence given with
  | error failure =>
      rw [visits, listed] at visited
      cases visited
  | ok values =>
      obtain ⟨-, positive, -⟩ := Grid.validate_eq_ok.1 (sequence_eq_ok listed).1
      obtain ⟨result, works, -⟩ := fit_works listed
      exact works.reached positive visited

theorem mem_fitEvents {visit : Visit α} {attempt : Attempt α} (visited : visit ∈ path.visits given)
    (made : attempt ∈ visit.attempts) : attempt.events ⊆ path.fitEvents given := by
  intro event member
  rw [fitEvents_eq]
  exact List.mem_flatMap.2 ⟨visit, visited, visit.tries.subset made member⟩

theorem raises_validate {values : List α} :
    Raises (fun failure => ∃ fault, failure = .invalidSequence fault) (Grid.validate values) := by
  unfold Grid.validate
  split
  · exact raises_error ⟨_, rfl⟩
  · split
    · exact raises_error ⟨_, rfl⟩
    · split
      · exact raises_error ⟨_, rfl⟩
      · exact raises_ok ()

theorem raises_sequence :
    Raises (fun failure => ∃ fault, failure = .invalidSequence fault) (path.sequence given) := by
  have checked : ∀ values : List α, Raises (fun failure => ∃ fault, failure = .invalidSequence fault)
      (do Grid.validate values; return values) :=
    fun values => Raises.bind raises_validate fun _ => raises_ok values
  unfold sequence
  cases given with
  | some values => exact checked values
  | none =>
      dsimp only
      split
      · exact checked _
      · exact raises_error ⟨_, rfl⟩

theorem fit_error {failure : Failure α} (failed : (path.fit given).1 = .error failure) :
    path.sequence given = .error failure ∨
      ∃ visit ∈ path.visits given, ∃ attempt ∈ visit.attempts,
        attempt.outcome.1 = .error failure := by
  cases listed : path.sequence given with
  | error fault =>
      rw [fit, listed] at failed
      cases failed
      exact .inl rfl
  | ok values =>
      obtain ⟨⟨steps, last⟩, works, run⟩ := fit_works listed
      rw [run] at failed
      cases steps with
      | ok steps => cases failed
      | error fault =>
          cases failed
          obtain ⟨visit, member, raised⟩ := works.error rfl
          obtain ⟨attempt, made, raised⟩ := visit.tries.error raised
          exact .inr ⟨visit, member, attempt, made, raised⟩

end

/-- The states of a path that runs and marked groups lead to. -/
inductive Reaches (start : Path α) : Path α → Prop where
  | start : Reaches start start
  | fit {path : Path α} (given : Option (List α)) :
      Reaches start path → Reaches start (path.fit given).2
  | markEverActive {path : Path α} (groups : List Nat) :
      Reaches start path → Reaches start (path.markEverActive groups)

theorem Reaches.trace {start path : Path α} (reaches : Reaches start path) :
    ∃ events, Trace start events path := by
  induction reaches with
  | start => exact ⟨[], .done start⟩
  | @fit path given _ ih =>
      obtain ⟨events, trace⟩ := ih
      exact ⟨_, trace.append (fit_trace path given)⟩
  | markEverActive groups _ ih =>
      obtain ⟨events, trace⟩ := ih
      exact ⟨_, trace.append (.single (.mark groups))⟩

end Path

end GroupLasso
