import GroupLasso.Failure

/-!
Chains of checks: one succeeds exactly when every check does, and fails with what one of them raises.
-/

namespace GroupLasso.Failure

variable {α β ε : Type}

theorem bind_eq_ok {first : Except ε α} {next : α → Except ε β} {result : β} :
    first >>= next = .ok result ↔ ∃ value, first = .ok value ∧ next value = .ok result := by
  cases first with
  | error failure => exact ⟨nofun, nofun⟩
  | ok value =>
      constructor
      · intro found
        exact ⟨value, rfl, found⟩
      · rintro ⟨_, ⟨⟩, found⟩
        exact found

theorem guard_eq_ok {condition : Prop} [Decidable condition] {failure : ε}
    {jump : α → Except ε β} {rest : Except ε β} {result : β} :
    (if condition then rest else throw failure >>= jump) = .ok result ↔
      condition ∧ rest = .ok result := by
  by_cases holds : condition
  · simp only [holds, if_true, true_and]
  · simp only [holds, if_false, false_and, iff_false]
    exact nofun

theorem unless_eq_ok {condition : Prop} [Decidable condition] {failure : ε} {done : Unit} :
    (if condition then pure () else throw failure : Except ε Unit) = .ok done ↔ condition := by
  by_cases holds : condition
  · simp only [holds, if_true, iff_true]
    rfl
  · simp only [holds, if_false, iff_false]
    exact nofun

theorem mapError_eq_ok {outcome : Except ε α} {translate : ε → β} {result : α} :
    outcome.mapError translate = .ok result ↔ outcome = .ok result := by
  cases outcome with
  | error failure => exact ⟨nofun, nofun⟩
  | ok value =>
      constructor
      · rintro ⟨⟩
        rfl
      · rintro ⟨⟩
        rfl

theorem map_eq_ok {outcome : Except ε α} {translate : α → β} {result : β} :
    outcome.map translate = .ok result ↔ ∃ value, outcome = .ok value ∧ result = translate value := by
  cases outcome with
  | error failure => exact ⟨nofun, nofun⟩
  | ok value =>
      constructor
      · rintro ⟨⟩
        exact ⟨value, rfl, rfl⟩
      · rintro ⟨_, ⟨⟩, rfl⟩
        rfl

theorem map_eq_error {outcome : Except ε α} {translate : α → β} {failure : ε} :
    outcome.map translate = .error failure ↔ outcome = .error failure := by
  cases outcome with
  | error fault =>
      constructor
      · rintro ⟨⟩
        rfl
      · rintro ⟨⟩
        rfl
  | ok value => exact ⟨nofun, nofun⟩

theorem bind_eq_error {first : Except ε α} {next : α → Except ε β} {failure : ε} :
    first >>= next = .error failure ↔
      first = .error failure ∨ ∃ value, first = .ok value ∧ next value = .error failure := by
  cases first with
  | error fault =>
      constructor
      · rintro ⟨⟩
        exact .inl rfl
      · rintro (⟨⟨⟩⟩ | ⟨_, ⟨⟩, _⟩)
        rfl
  | ok value =>
      constructor
      · intro found
        exact .inr ⟨value, rfl, found⟩
      · rintro (⟨⟨⟩⟩ | ⟨_, ⟨⟩, found⟩)
        exact found

theorem foldlM_eq_error {step : β → α → Except ε β} {items : List α} {start : β} {failure : ε} :
    items.foldlM step start = .error failure ↔ ∃ before item after, items = before ++ item :: after ∧
      ∃ reached, before.foldlM step start = .ok reached ∧ step reached item = .error failure := by
  induction items generalizing start with
  | nil =>
      constructor
      · exact nofun
      · rintro ⟨before, item, after, split, -⟩
        simp at split
  | cons first rest ih =>
      rw [List.foldlM_cons, bind_eq_error]
      constructor
      · rintro (stopped | ⟨next, passed, stopped⟩)
        · exact ⟨[], first, rest, rfl, start, rfl, stopped⟩
        · obtain ⟨before, item, after, rfl, reached, run, stopped⟩ := ih.1 stopped
          refine ⟨first :: before, item, after, rfl, reached, ?_, stopped⟩
          rw [List.foldlM_cons]
          exact bind_eq_ok.2 ⟨next, passed, run⟩
      · rintro ⟨before, item, after, split, reached, run, stopped⟩
        cases before with
        | nil =>
            cases split
            cases run
            exact .inl stopped
        | cons _ before =>
            cases split
            rw [List.foldlM_cons] at run
            obtain ⟨next, passed, run⟩ := bind_eq_ok.1 run
            exact .inr ⟨next, passed, ih.2 ⟨before, item, after, rfl, reached, run, stopped⟩⟩

theorem forIn_eq_ok {items : List β} {check : β → Except ε Unit} {done : Unit} :
    (forIn items () fun item _ => do
        check item
        pure (ForInStep.yield ())) = .ok done ↔ ∀ item ∈ items, check item = .ok () := by
  induction items with
  | nil => simp [pure, Except.pure]
  | cons first rest ih =>
      rw [List.forIn_cons, List.forall_mem_cons, ← ih]
      cases check first with
      | error failure => simp [bind, Except.bind]
      | ok passed => simp [bind, Except.bind, pure, Except.pure]

theorem exists_error {outcome : Except ε α} :
    (∃ failure, outcome = .error failure) ↔ ∀ result, outcome ≠ .ok result := by
  cases outcome with
  | error failure => exact ⟨fun _ => nofun, fun _ => ⟨failure, rfl⟩⟩
  | ok result => exact ⟨nofun, fun absent => absurd rfl (absent result)⟩

theorem expectShape_eq_ok {expected found : Shape} {context : String} {done : Unit} :
    (expectShape expected found context : Except (Failure α) Unit) = .ok done ↔
      expected = found := by
  unfold expectShape
  split <;> simp_all

theorem expectLength_eq_ok {expected found : Nat} {context : String} {done : Unit} :
    (expectLength expected found context : Except (Failure α) Unit) = .ok done ↔
      expected = found := by
  unfold expectLength
  split <;> simp_all

/-- Every failure of a computation meets a condition. -/
def Raises (condition : Failure α → Prop) (outcome : Except (Failure α) β) : Prop :=
  ∀ failure, outcome = .error failure → condition failure

section
variable {first second : Type} {condition : Failure α → Prop}

theorem raises_ok (result : first) : Raises condition (.ok result) := nofun

theorem raises_error {failure : Failure α} (holds : condition failure) :
    Raises condition (.error failure : Except (Failure α) first) := by
  rintro _ ⟨⟩
  exact holds

theorem Raises.bind {outcome : Except (Failure α) first}
    {next : first → Except (Failure α) second} (raises : Raises condition outcome)
    (later : ∀ result, Raises condition (next result)) : Raises condition (outcome >>= next) := by
  cases outcome with
  | error failure => exact raises_error (raises failure rfl)
  | ok result => exact later result

theorem Raises.foldlM {step : first → second → Except (Failure α) first}
    (raises : ∀ state item, Raises condition (step state item)) (items : List second) (start : first) :
    Raises condition (items.foldlM step start) := by
  intro failure failed
  obtain ⟨_, item, _, _, reached, _, stopped⟩ := foldlM_eq_error.1 failed
  exact raises reached item failure stopped

theorem Raises.map {outcome : Except (Failure α) first} (raises : Raises condition outcome)
    (translate : first → second) : Raises condition (outcome.map translate) := by
  cases outcome with
  | error failure => exact raises_error (raises failure rfl)
  | ok result => exact raises_ok _

end

/-! Outcomes of two computations. -/

/-- Two outcomes agree: both are failures of one kind, or both are results and these are related. -/
def Agree {first second : Type} (related : first → second → Prop) :
    Except (Failure α) first → Except (Failure α) second → Prop
  | .error failure, .error other => failure.ctorIdx = other.ctorIdx
  | .ok result, .ok other => related result other
  | _, _ => False

section
variable {first second third fourth : Type} {related : first → second → Prop}
  {after : third → fourth → Prop} {left : Except (Failure α) first} {right : Except (Failure α) second}

theorem agree_map (translate : first → second) (outcome : Except (Failure α) first) :
    Agree (fun result other => other = translate result) outcome (outcome.map translate) := by
  cases outcome <;> exact rfl

theorem agree_refl (outcome : Except (Failure α) first) : Agree Eq outcome outcome := by
  cases outcome <;> exact rfl

theorem Agree.imp {weaker : first → second → Prop} (agree : Agree related left right)
    (implies : ∀ result other, related result other → weaker result other) :
    Agree weaker left right := by
  cases left <;> cases right
  · exact agree
  · exact agree
  · exact agree
  · exact implies _ _ agree

theorem Agree.bind (agree : Agree related left right)
    {next : first → Except (Failure α) third} {other : second → Except (Failure α) fourth}
    (later : ∀ result relative, left = .ok result → right = .ok relative → related result relative →
      Agree after (next result) (other relative)) : Agree after (left >>= next) (right >>= other) := by
  cases left with
  | error failure =>
      cases right with
      | error failure => exact agree
      | ok relative => exact agree.elim
  | ok result =>
      cases right with
      | error failure => exact agree.elim
      | ok relative => exact later result relative rfl rfl agree

end

end GroupLasso.Failure
