import ClearNames.NameTree.Growth
import ClearNames.RenameLog.Reading

/-! Running steps that keep a state and may fail.

A step that fails leaves the state it came to: the laws say what `pure`,
`throw`, sequencing and access to the state do to a run from a given state.
-/

set_option autoImplicit false

namespace ClearNames

section
variable {ε σ α β : Type}

theorem run_bind_of_ok {step : ExceptT ε (StateM σ) α} {state later : σ} {value : α}
    (ran : (step.run.run state : Id _).run = (.ok value, later)) (next : α → ExceptT ε (StateM σ) β) :
    ((step >>= next).run.run state : Id _).run = ((next value).run.run later : Id _).run := by
  change step state = _ at ran
  change Id.run (StateT.bind step (ExceptT.bindCont next) state) = _
  simp only [StateT.bind, bind, ran]
  rfl

theorem run_bind_of_error {step : ExceptT ε (StateM σ) α} {state later : σ} {fault : ε}
    (ran : (step.run.run state : Id _).run = (.error fault, later)) (next : α → ExceptT ε (StateM σ) β) :
    ((step >>= next).run.run state : Id _).run = (.error fault, later) := by
  change step state = _ at ran
  change Id.run (StateT.bind step (ExceptT.bindCont next) state) = _
  simp only [StateT.bind, bind, ran]
  rfl

theorem run_bind_eq_ok {step : ExceptT ε (StateM σ) α} {next : α → ExceptT ε (StateM σ) β} {state later : σ}
    {result : β} (ran : ((step >>= next).run.run state : Id _).run = (.ok result, later)) :
    ∃ value between, (step.run.run state : Id _).run = (.ok value, between) ∧
      ((next value).run.run between : Id _).run = (.ok result, later) := by
  rcases first : (step.run.run state : Id _).run with ⟨fault | value, between⟩
  · rw [run_bind_of_error first] at ran
    cases ran
  · rw [run_bind_of_ok first] at ran
    exact ⟨value, between, rfl, ran⟩

end

namespace Growth
variable {α β : Type} (tree : NameTree)

@[simp] theorem on_pure (value : α) : (pure value : Growth α).on tree = (.ok value, tree) := rfl

@[simp] theorem on_throw (fault : NamingFault) : (throw fault : Growth α).on tree = (.error fault, tree) := rfl

@[simp] theorem on_get : (get : Growth NameTree).on tree = (.ok tree, tree) := rfl

@[simp] theorem on_set (later : NameTree) : (set later : Growth PUnit).on tree = (.ok ⟨⟩, later) := rfl

@[simp] theorem on_modifyGet (change : NameTree → α × NameTree) :
    (modifyGet change : Growth α).on tree = (.ok (change tree).1, (change tree).2) := rfl

theorem on_bind_of_ok {step : Growth α} {value : α} {tree later : NameTree}
    (ran : step.on tree = (.ok value, later)) (next : α → Growth β) :
    (step >>= next).on tree = (next value).on later := run_bind_of_ok ran next

theorem on_bind_of_error {step : Growth α} {fault : NamingFault} {tree later : NameTree}
    (ran : step.on tree = (.error fault, later)) (next : α → Growth β) :
    (step >>= next).on tree = (.error fault, later) := run_bind_of_error ran next

theorem on_bind (step : Growth α) (next : α → Growth β) :
    (step >>= next).on tree = match step.on tree with
      | (.ok value, later) => (next value).on later
      | (.error fault, later) => (.error fault, later) := by
  rcases ran : step.on tree with ⟨fault | value, later⟩
  · exact on_bind_of_error ran next
  · exact on_bind_of_ok ran next

@[simp] theorem on_get_bind (next : NameTree → Growth β) : (get >>= next).on tree = (next tree).on tree :=
  on_bind_of_ok (on_get tree) next

theorem on_map (change : α → β) (step : Growth α) :
    (change <$> step).on tree = ((step.on tree).1.map change, (step.on tree).2) := by
  rw [map_eq_pure_bind, on_bind]
  rcases step.on tree with ⟨fault | value, later⟩ <;> rfl

theorem on_map_eq_ok {change : α → β} {step : Growth α} {tree later : NameTree} {result : β}
    (ran : (change <$> step).on tree = (.ok result, later)) :
    ∃ value, step.on tree = (.ok value, later) ∧ result = change value := by
  rw [on_map] at ran
  rcases first : step.on tree with ⟨fault | value, between⟩ <;> rw [first] at ran <;> cases ran
  exact ⟨value, rfl, rfl⟩

theorem on_bind_eq_ok {step : Growth α} {next : α → Growth β} {tree later : NameTree} {result : β}
    (ran : (step >>= next).on tree = (.ok result, later)) :
    ∃ value between, step.on tree = (.ok value, between) ∧ (next value).on between = (.ok result, later) :=
  run_bind_eq_ok ran

end Growth

namespace Reading
variable {α β : Type} (state : ReadingState)

/-- The result of a reading step from a state, and the state it leaves. -/
def on (step : Reading α) (state : ReadingState) : Except RenameLogFault α × ReadingState :=
  (step.run.run state : Id _).run

@[simp] theorem on_get : (get : Reading ReadingState).on state = (.ok state, state) := rfl

theorem on_bind_of_ok {step : Reading α} {value : α} {state later : ReadingState}
    (ran : step.on state = (.ok value, later)) (next : α → Reading β) :
    (step >>= next).on state = (next value).on later := run_bind_of_ok ran next

theorem on_bind_of_error {step : Reading α} {fault : RenameLogFault} {state later : ReadingState}
    (ran : step.on state = (.error fault, later)) (next : α → Reading β) :
    (step >>= next).on state = (.error fault, later) := run_bind_of_error ran next

@[simp] theorem on_get_bind (next : ReadingState → Reading β) : (get >>= next).on state = (next state).on state :=
  on_bind_of_ok (on_get state) next

theorem on_bind_eq_ok {step : Reading α} {next : α → Reading β} {state later : ReadingState} {result : β}
    (ran : (step >>= next).on state = (.ok result, later)) :
    ∃ value between, step.on state = (.ok value, between) ∧ (next value).on between = (.ok result, later) :=
  run_bind_eq_ok ran

/-- Growing the tree within a reading leaves the records and reports a naming fault as such. -/
theorem on_grow (step : Growth α) :
    (grow step).on state =
      (match (step.on state.tree).1 with
        | .ok value => .ok value
        | .error fault => .error (.naming fault), { state with tree := (step.on state.tree).2 }) := by
  unfold grow
  rw [on_get_bind]
  rcases step.on state.tree with ⟨fault | value, later⟩ <;> rfl

theorem on_grow_of_ok {step : Growth α} {value : α} {tree later : NameTree} (ran : step.on tree = (.ok value, later))
    (records : List Record) : (grow step).on ⟨tree, records⟩ = (.ok value, ⟨later, records⟩) := by
  rw [on_grow, ran]

theorem on_grow_eq_ok {step : Growth α} {value : α} {state later : ReadingState}
    (ran : (grow step).on state = (.ok value, later)) : step.on state.tree = (.ok value, later.tree) := by
  rw [on_grow] at ran
  rcases grown : step.on state.tree with ⟨fault | result, tree⟩ <;> rw [grown] at ran <;> cases ran
  rfl

/-- What every round of a loop keeps of the tree is kept by the loop. -/
theorem foldlM_keeps {holds : NameTree → Prop} {round : β → α → Reading β}
    (each : ∀ {value item result before after}, holds before.tree →
      (round value item).on before = (.ok result, after) → holds after.tree)
    {items : List α} {value result : β} {before after : ReadingState} (start : holds before.tree)
    (ran : (items.foldlM round value).on before = (.ok result, after)) : holds after.tree := by
  induction items generalizing value before with
  | nil =>
    cases ran
    exact start
  | cons item rest ih =>
    rw [List.foldlM_cons] at ran
    obtain ⟨next, between, first, others⟩ := on_bind_eq_ok ran
    exact ih (each start first) others

theorem outcome_eq (reading : Reading Unit) :
    reading.result.outcome = (reading.on ⟨.empty, []⟩).1.map fun _ => (reading.on ⟨.empty, []⟩).2.tree := rfl

theorem on_of_result_eq_ok {reading : Reading Unit} {tree : NameTree} (ends : reading.result.outcome = .ok tree) :
    ∃ state, reading.on ⟨.empty, []⟩ = (.ok (), state) ∧ state.tree = tree := by
  rw [outcome_eq] at ends
  rcases ran : reading.on ⟨.empty, []⟩ with ⟨fault | _, state⟩ <;> rw [ran] at ends <;> cases ends
  exact ⟨state, rfl, rfl⟩

end Reading

end ClearNames
