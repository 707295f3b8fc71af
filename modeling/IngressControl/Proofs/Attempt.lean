/-!
What chains of attempts come to.
-/

namespace IngressControl.Attempt

variable {α β ε : Type}

theorem bind_eq_ok_iff {action : Except ε α} {next : α → Except ε β} {value : β} :
    (action >>= next) = .ok value ↔ ∃ item, action = .ok item ∧ next item = .ok value := by
  cases action with
  | error fault => exact ⟨nofun, fun ⟨_, failed, _⟩ => nomatch failed⟩
  | ok item =>
      constructor
      · intro done
        exact ⟨item, rfl, done⟩
      · rintro ⟨_, same, done⟩
        cases same
        exact done

theorem map_eq_ok_iff {action : Except ε α} {change : α → β} {value : β} :
    action.map change = .ok value ↔ ∃ item, action = .ok item ∧ change item = value := by
  cases action <;> simp [Except.map]

theorem map_eq_error_iff {action : Except ε α} {change : α → β} {fault : ε} :
    action.map change = .error fault ↔ action = .error fault := by
  cases action <;> simp [Except.map]

def FailsAs (Kind : ε → Prop) (action : Except ε α) : Prop :=
  ∀ fault, action = .error fault → Kind fault

variable {Kind : ε → Prop}

theorem failsAs_ok (value : α) : FailsAs Kind (.ok value : Except ε α) := nofun

theorem failsAs_error {fault : ε} (kind : Kind fault) :
    FailsAs Kind (.error fault : Except ε α) := by
  rintro _ ⟨⟩
  exact kind

theorem failsAs_bind {action : Except ε α} {next : α → Except ε β} (first : FailsAs Kind action)
    (rest : ∀ item, FailsAs Kind (next item)) : FailsAs Kind (action >>= next) := by
  cases action with
  | error fault => exact failsAs_error (first fault rfl)
  | ok item => exact rest item

theorem failsAs_ite {condition : Prop} [Decidable condition] {first second : Except ε α}
    (left : condition → FailsAs Kind first) (right : ¬ condition → FailsAs Kind second) :
    FailsAs Kind (if condition then first else second) := by
  split
  · exact left ‹_›
  · exact right ‹_›

/-- Both attempts fail or both succeed, with related results. -/
inductive Alongside {ε' β : Type} (Faults : ε → ε' → Prop) (Values : α → β → Prop) :
    Except ε α → Except ε' β → Prop
  | error {fault : ε} {fault' : ε'} : Faults fault fault' →
      Alongside Faults Values (.error fault) (.error fault')
  | ok {value : α} {value' : β} : Values value value' → Alongside Faults Values (.ok value) (.ok value')

theorem alongside_cases {ε' β : Type} {Faults : ε → ε' → Prop} {Values : α → β → Prop}
    {action : Except ε α} {action' : Except ε' β}
    (related : Alongside Faults Values action action') :
    (∃ fault fault', action = .error fault ∧ action' = .error fault' ∧ Faults fault fault') ∨
      ∃ value value', action = .ok value ∧ action' = .ok value' ∧ Values value value' := by
  cases related with
  | error both => exact .inl ⟨_, _, rfl, rfl, both⟩
  | ok both => exact .inr ⟨_, _, rfl, rfl, both⟩

theorem alongside_refl (action : Except ε α) : Alongside Eq Eq action action := by
  cases action with
  | error fault => exact .error rfl
  | ok value => exact .ok rfl

theorem alongside_imp {β ε' : Type} {Faults Faults' : ε → ε' → Prop} {Values Values' : α → β → Prop}
    {action : Except ε α} {action' : Except ε' β}
    (faults : ∀ fault fault', Faults fault fault' → Faults' fault fault')
    (values : ∀ value value', Values value value' → Values' value value')
    (related : Alongside Faults Values action action') : Alongside Faults' Values' action action' := by
  cases related with
  | error both => exact .error (faults _ _ both)
  | ok both => exact .ok (values _ _ both)

theorem alongside_bind {α' β' ε' : Type} {Faults : ε → ε' → Prop} {Values : α → α' → Prop}
    {Results : β → β' → Prop} {action : Except ε α} {action' : Except ε' α'} {next : α → Except ε β}
    {next' : α' → Except ε' β'} (first : Alongside Faults Values action action')
    (rest : ∀ value value', Values value value' →
      Alongside Faults Results (next value) (next' value')) :
    Alongside Faults Results (action >>= next) (action' >>= next') := by
  cases first with
  | error related => exact .error related
  | ok related => exact rest _ _ related

end IngressControl.Attempt
