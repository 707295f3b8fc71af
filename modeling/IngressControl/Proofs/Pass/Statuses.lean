import IngressControl.Pass.Statuses
import IngressControl.Proofs.Pass.Stacks
/-!
What reporting addresses comes to, and what ends it early.

A load balancer either gives its address to all its endpoints or leaves everything but a count as it
was. Only a debug message about an address that is held back can end the work.
-/

namespace IngressControl

def Descriptor.Immeasurable (minAge : Span) (now : Instant) (descriptor : Descriptor) : Prop :=
  ∃ existing address, descriptor.existing = some existing ∧
    existing.stack.address? = some address ∧ existing.stack.isRoutable now minAge = false ∧
    minAge.minus? (existing.stack.age now) = none

theorem Stack.remaining_eq_error_iff {stack : Stack} {now : Instant} {minAge : Span}
    {overflow : TimeOverflow} : stack.remaining now minAge = .error overflow ↔
      overflow = .spanDifference ∧ minAge.minus? (stack.age now) = none := by
  rw [remaining]
  cases minAge.minus? (stack.age now) with
  | none => exact ⟨fun failed => ⟨(Except.error.inj failed).symm, rfl⟩, fun ⟨same, _⟩ => same ▸ rfl⟩
  | some span => simp

/-- With the greatest age that can be asked for, a stack that is dated behind the pass. -/
example : (Stack.remaining ⟨"ahead", .createComplete, none, none, ⟨1, 0⟩, {}⟩ ⟨0, 0⟩
    ⟨9223372036854775 * Span.billion⟩) = .error .spanDifference := by rfl

namespace StatusWork

variable {debugs dryRun : Bool} {minAge : Span} {now : Instant} {work after : StatusWork}
  {descriptor : Descriptor} {descriptors : List Descriptor}

theorem writeAll_cases (done : writeAll debugs dryRun minAge now work descriptor = .ok after) :
    after = work ∨
    (∃ existing address, descriptor.existing = some existing ∧
      existing.stack.address? = some address ∧ existing.stack.isRoutable now minAge = true ∧
      after = descriptor.endpoints.foldl (write dryRun address) work) ∨
    after = work.countWithheld descriptor.endpoints.length := by
  rw [writeAll] at done
  split at done
  · exact .inl (Except.ok.inj done).symm
  · rename_i existing old
    split at done
    · exact .inl (Except.ok.inj done).symm
    · rename_i address addressed
      split at done
      · rename_i routable
        exact .inr (.inl ⟨existing, address, old, addressed, routable, (Except.ok.inj done).symm⟩)
      · simp only at done
        split at done
        · obtain ⟨_, _, same⟩ := Attempt.map_eq_ok_iff.mp done
          exact .inr (.inr same.symm)
        · exact .inr (.inr (Except.ok.inj done).symm)

theorem writeAll_eq_error_iff {overflow : TimeOverflow} :
    writeAll debugs dryRun minAge now work descriptor = .error overflow ↔
      overflow = .spanDifference ∧ debugs = true ∧ descriptor.Immeasurable minAge now := by
  rw [writeAll, Descriptor.Immeasurable]
  cases descriptor.existing with
  | none => simp
  | some existing =>
      cases addressed : existing.stack.address? with
      | none => simp [addressed]
      | some address =>
          cases routable : existing.stack.isRoutable now minAge with
          | true => simp [addressed, routable]
          | false =>
              cases debugs with
              | false => simp [addressed, routable]
              | true =>
                  simp only [addressed, routable, Bool.false_eq_true, ↓reduceIte, true_and]
                  rw [Attempt.map_eq_error_iff, Stack.remaining_eq_error_iff]
                  simp [routable, addressed]

/-- The work ends early only for a debug message, at the first load balancer that has none. -/
theorem reportAll_error {stop : TimeOverflow × StatusWork}
    (stopped : reportAll debugs dryRun minAge now work descriptors = .error stop) :
    debugs = true ∧ ∃ descriptor ∈ descriptors, descriptor.Immeasurable minAge now := by
  rw [reportAll] at stopped
  obtain ⟨work, descriptor, member, failed⟩ := each_error stopped
  obtain ⟨_, shown, immeasurable⟩ := writeAll_eq_error_iff.mp failed
  exact ⟨shown, descriptor, member, immeasurable⟩

theorem reportAll_ok
    (measurable : debugs = true → ∀ descriptor ∈ descriptors, ¬ descriptor.Immeasurable minAge now)
    (work : StatusWork) : ∃ after, reportAll debugs dryRun minAge now work descriptors = .ok after := by
  cases outcome : reportAll debugs dryRun minAge now work descriptors with
  | ok after => exact ⟨after, rfl⟩
  | error stop =>
      obtain ⟨shown, descriptor, member, immeasurable⟩ := reportAll_error outcome
      exact absurd immeasurable (measurable shown descriptor member)

theorem reportAll_immeasurable (shown : debugs = true) {descriptor : Descriptor}
    (member : descriptor ∈ descriptors) (immeasurable : descriptor.Immeasurable minAge now)
    (work : StatusWork) : ∃ stop, reportAll debugs dryRun minAge now work descriptors = .error stop :=
  each_stops member (fun _ => ⟨_, writeAll_eq_error_iff.mpr ⟨rfl, shown, immeasurable⟩⟩) work

end StatusWork

end IngressControl
