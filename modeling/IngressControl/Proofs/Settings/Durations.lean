import IngressControl.Proofs.Instant.Grace
import IngressControl.Proofs.Pass.Stacks
import IngressControl.Settings.Basic
/-!
The durations of the settings.

A number of seconds becomes a span of just as many up to the longest span, and of as many in no other
case: beyond it there is no span, or one below zero, since the number is read with a sign. With spans
as configured no deletion is scheduled for an earlier moment and no address is reported at once.
-/

namespace IngressControl

namespace Span

def greatestSeconds : Nat := 9223372036854775

theorem asSigned_of_small {value : Nat} (small : value ≤ greatestSeconds) :
    asSigned value = value := by
  have below : value < 0x8000000000000000 := by
    rw [greatestSeconds] at small
    omega
  rw [asSigned, if_pos below]

theorem seconds?_asSigned_iff {value : Nat} :
    seconds? (asSigned value) = some ⟨value * billion⟩ ↔ value ≤ greatestSeconds := by
  constructor
  · intro stated
    rw [seconds?] at stated
    split at stated
    · rename_i inside
      have same : asSigned value * billion = value * billion :=
        congrArg nanos (Option.some.inj stated)
      have kept : asSigned value = value := Int.eq_of_mul_eq_mul_right (by decide) same
      rw [kept] at inside
      rw [greatestSeconds]
      omega
    · cases stated
  · intro small
    have inside : -9223372036854775 ≤ (value : Int) ∧ (value : Int) ≤ 9223372036854775 := by
      rw [greatestSeconds] at small
      omega
    rw [asSigned_of_small small, seconds?, if_pos inside]

end Span

namespace Instant

theorem since_self (moment : Instant) : moment.since moment = Span.zero := by
  simp [since, Span.zero]

end Instant

theorem Stack.not_isRoutable_of_new (stack : Stack) {minAge : Span} (positive : Span.zero < minAge) :
    stack.isRoutable stack.createdAt minAge = false := by
  have young : ¬ minAge ≤ Span.zero := Int.not_le.mpr positive
  rw [isRoutable, age, Instant.since_self, decide_eq_false young]

namespace ControllerSettings

/-- The durations are spans of the seconds configured, and neither schedules a deletion for an earlier
moment nor lets the address of a stack out when it is created. -/
structure Punctual (settings : ControllerSettings) (grace minAge : Span) : Prop where
  grace_stated : settings.gracePeriod? = some grace
  minAge_stated : settings.minAge? = some minAge
  grace_exact : grace.nanos = settings.deletionGraceSeconds * Span.billion
  minAge_exact : minAge.nanos = settings.minLoadBalancerAgeSeconds * Span.billion
  grace_forward : Span.zero ≤ grace
  minAge_forward : Span.zero ≤ minAge
  unhurried : ∀ (orphan : ObservedStack) (now moment : Instant),
    orphan.planOrphan now grace = .ok (.schedule moment) → now ≤ moment
  withheld : 0 < settings.minLoadBalancerAgeSeconds →
    ∀ stack : Stack, stack.isRoutable stack.createdAt minAge = false

/-- The durations are as configured exactly up to the longest span. -/
theorem punctual_iff (settings : ControllerSettings) :
    (∃ grace minAge, settings.Punctual grace minAge) ↔
      settings.deletionGraceSeconds ≤ Span.greatestSeconds ∧
        settings.minLoadBalancerAgeSeconds ≤ Span.greatestSeconds := by
  constructor
  · rintro ⟨⟨grace⟩, ⟨minAge⟩, punctual⟩
    obtain rfl := punctual.grace_exact
    obtain rfl := punctual.minAge_exact
    exact ⟨Span.seconds?_asSigned_iff.mp punctual.grace_stated,
      Span.seconds?_asSigned_iff.mp punctual.minAge_stated⟩
  · rintro ⟨grace, minAge⟩
    have forward (count : Nat) : Span.zero ≤ ⟨count * Span.billion⟩ :=
      Int.mul_nonneg (Int.natCast_nonneg count) (by decide)
    refine ⟨_, _, Span.seconds?_asSigned_iff.mpr grace, Span.seconds?_asSigned_iff.mpr minAge, rfl, rfl,
      forward _, forward _, fun orphan now moment planned => ?_, fun positive stack => ?_⟩
    · exact Instant.le_of_plus? (forward _) (ObservedStack.planOrphan_schedule planned).2.2
    · exact stack.not_isRoutable_of_new (Int.mul_pos (Int.natCast_pos.mpr positive) (by decide))

def lasting (seconds : Nat) : Settings where
  controller := { deletionGraceSeconds := seconds, minLoadBalancerAgeSeconds := seconds }

def idle : ObservedStack where
  stack :=
    { name := "old", status := .createComplete, dnsName := some "old.elb.local", targetGroup := none
      createdAt := ⟨1772366400, 0⟩, tags := Tags.ownedBy "shop" }
  key :=
    { scheme := .internal, securityGroup := "", sslPolicy := "", loadBalancerType := .application
      addressFamily := .ipv4, http2 := true, webAcl := none }
  shared := true
  owner := none
  certificates := {}
  deletionScheduledAt := none

/-- The greatest number of eight bytes passes for a second less than none: the stack goes at once, and
its address is let out at once. One second more than the longest span is no span. -/
theorem lasting_unpunctual :
    (lasting (2 ^ 64 - 1)).validate = .ok () ∧ (lasting 9223372036854776).validate = .ok () ∧
      (lasting (2 ^ 64 - 1)).controller.gracePeriod? = some ⟨-1000000000⟩ ∧
      idle.planOrphan ⟨1772366400, 0⟩ ⟨-1000000000⟩ = .ok (.schedule ⟨1772366399, 0⟩) ∧
      (lasting (2 ^ 64 - 1)).controller.minAge? = some ⟨-1000000000⟩ ∧
      idle.stack.isRoutable ⟨1772366400, 0⟩ ⟨-1000000000⟩ = true ∧
      (¬ ∃ grace minAge, (lasting (2 ^ 64 - 1)).controller.Punctual grace minAge) ∧
      (lasting 9223372036854776).controller.gracePeriod? = none ∧
      (lasting 9223372036854776).controller.minAge? = none := by
  have wrapped : (lasting (2 ^ 64 - 1)).controller.gracePeriod? = some ⟨-1000000000⟩ := by
    decide +kernel
  refine ⟨by decide +kernel, by decide +kernel, wrapped, by decide +kernel, by decide +kernel,
    by decide +kernel, ?_, by decide +kernel, by decide +kernel⟩
  rintro ⟨grace, minAge, punctual⟩
  obtain rfl : grace = ⟨-1000000000⟩ := Option.some.inj (punctual.grace_stated.symm.trans wrapped)
  exact absurd punctual.grace_forward (by decide)

end ControllerSettings

end IngressControl
