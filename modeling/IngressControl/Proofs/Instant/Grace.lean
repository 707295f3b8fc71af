import IngressControl.Proofs.Instant.Stamp
import IngressControl.Stack.Tags
/-!
Times that are written into tags and read again.

Writing a time a second time changes nothing, the end of a grace period of a second or more lies
ahead also when it is written, and no time ahead of the distant past is written like it.
-/

namespace IngressControl

namespace Instant

structure Storable (moment : Instant) : Prop where
  plain : moment.HasPlainYear
  stamped_eq : moment.stamped = moment

def distantPast : Instant := ⟨-62135596800, 0⟩

theorem strict_keepIndefinitely : Stamp.strict Tag.keepIndefinitely = .ok distantPast := by
  decide +kernel

/-- What a stamp can name: an ordinary second, or a leap second at the end of a minute. -/
theorem stamped_cases (moment : Instant) : moment.stamped.nano = 0 ∨
    (moment.stamped.nano = 1000000000 ∧ moment.stamped.second % 60 = 59) := by
  rw [stamped]
  by_cases leap : moment.isLeap = true
  · by_cases last : moment.second % 60 = 59
    · rw [if_neg (by simp [last]), wholeSecond, if_pos leap]
      exact .inr ⟨rfl, last⟩
    · rw [if_pos ⟨leap, last⟩]
      exact .inl rfl
  · rw [if_neg (by simp [leap]), wholeSecond, if_neg leap]
    exact .inl rfl

theorem stamped_stamped (moment : Instant) : moment.stamped.stamped = moment.stamped := by
  have shown := moment.stamped_cases
  generalize moment.stamped = other at shown
  obtain ⟨second, nano⟩ := other
  rcases shown with rfl | ⟨rfl, last⟩
  · rfl
  · have last : second % 60 = 59 := last
    simp [stamped, wholeSecond, isLeap, last]

theorem stamped_day (moment : Instant) : moment.stamped.second / 86400 = moment.second / 86400 := by
  rw [stamped]
  split
  · simp only
    omega
  · rfl

theorem storable_stamped {moment : Instant} (plain : moment.HasPlainYear) :
    moment.stamped.Storable := by
  refine ⟨?_, moment.stamped_stamped⟩
  rw [HasPlainYear, date, stamped_day]
  exact plain

theorem lt_stamped {now moment : Instant} (ahead : now.second < moment.second) :
    now < moment.stamped := by
  have whole := moment.wholeSecond_le_stamped
  rw [le_def] at whole
  rw [lt_def]
  simp only [wholeSecond] at whole
  omega

theorem stamped_eq_distantPast_iff {moment : Instant} :
    moment.stamped = distantPast ↔ moment.second = distantPast.second ∧ moment.isLeap = false := by
  rw [stamped, wholeSecond, distantPast]
  cases leap : moment.isLeap with
  | false => simp
  | true =>
      split
      -- The second in front of the distant past ends its minute.
      · simp only [mk.injEq, and_true, Bool.true_eq_false, and_false, iff_false]
        omega
      · simp

/-- The only stamp that reads as the distant past is the one that stands for it. -/
theorem secondText_eq_keepIndefinitely_iff {moment : Instant} (plain : moment.HasPlainYear) :
    moment.secondText = Tag.keepIndefinitely ↔ moment.stamped = distantPast := by
  constructor
  · intro same
    have read := Stamp.strict_secondText plain
    rw [same, strict_keepIndefinitely] at read
    exact (Except.ok.inj read).symm
  · intro past
    obtain ⟨second, leap⟩ := stamped_eq_distantPast_iff.mp past
    have shown : distantPast.secondText = Tag.keepIndefinitely := by decide +kernel
    have ordinary : distantPast.isLeap = false := rfl
    rw [← shown, secondText, secondText, leading, leading, secondOfDay, secondOfDay, second, leap,
      ordinary]

theorem secondText_ne_keepIndefinitely {now moment : Instant} (recent : distantPast < now)
    (plain : moment.HasPlainYear) (ahead : now < moment.stamped) :
    moment.secondText ≠ Tag.keepIndefinitely := by
  rw [Ne, secondText_eq_keepIndefinitely_iff plain]
  intro past
  rw [past, lt_def] at ahead
  rw [lt_def] at recent
  omega

/-- What a removal time says when it is read again: the time of its stamp, but none where the stamp
stands for a certificate that is kept. -/
def recalled (moment : Instant) : Option Instant :=
  if moment.stamped = distantPast then none else some moment.stamped

theorem recalled_of_ordinary {moment : Instant} (ordinary : moment.isLeap = false) :
    moment.recalled
      = if moment.second = distantPast.second then none else some ⟨moment.second, 0⟩ := by
  have stamp : moment.stamped = ⟨moment.second, 0⟩ := by
    simp [stamped, wholeSecond, ordinary]
  rw [recalled]
  by_cases past : moment.stamped = distantPast
  · rw [if_pos past, if_pos (stamped_eq_distantPast_iff.mp past).1]
  · rw [if_neg past, if_neg fun same => past (stamped_eq_distantPast_iff.mpr ⟨same, ordinary⟩), stamp]

theorem inRange?_eq_some {moment kept : Instant} (inside : moment.inRange? = some kept) :
    kept = moment := by
  rw [inRange?] at inside
  split at inside
  · exact (Option.some.inj inside).symm
  · cases inside

/-- A moment is put off by all the whole seconds of a span, also from within a leap second. -/
theorem second_add_le {now later : Instant} {span : Span} (forward : 0 ≤ span.nanos)
    (ends : now.plus? span = some later) :
    now.second + span.nanos / Span.billion ≤ later.second := by
  rw [plus?, Int.tdiv_eq_ediv_of_nonneg forward, Int.tmod_eq_emod_of_nonneg forward] at ends
  have fraction : 0 ≤ span.nanos % Span.billion := Int.emod_nonneg _ (by decide)
  by_cases leap : now.isLeap = true
  · have full : 1000000000 ≤ now.nano := by simpa [isLeap] using leap
    have seconds : ¬ span.nanos / Span.billion < 0 :=
      Int.not_lt.mpr (Int.ediv_nonneg forward (by decide))
    simp only [leap, ↓reduceIte, seconds] at ends
    split at ends
    · rw [inRange?_eq_some ends, carried]
      simp only [Span.billion] at *
      omega
    -- Within the leap second no whole second passes.
    · cases ends
      simp only
      omega
  · simp only [leap, Bool.false_eq_true, ↓reduceIte] at ends
    rw [inRange?_eq_some ends, carried]
    simp only [Span.billion] at *
    omega

theorem le_of_plus? {now later : Instant} {span : Span} (forward : 0 ≤ span.nanos)
    (ends : now.plus? span = some later) : now ≤ later := by
  rw [plus?, Int.tdiv_eq_ediv_of_nonneg forward, Int.tmod_eq_emod_of_nonneg forward] at ends
  have whole : 0 ≤ span.nanos / Span.billion := Int.ediv_nonneg forward (by decide)
  have fraction : 0 ≤ span.nanos % Span.billion := Int.emod_nonneg _ (by decide)
  generalize span.nanos / Span.billion = seconds at whole ends
  generalize span.nanos % Span.billion = rest at fraction ends
  rw [le_def]
  by_cases leap : now.isLeap = true
  · simp only [leap, ↓reduceIte, Int.not_lt.mpr whole] at ends
    split at ends
    · rw [inRange?_eq_some ends, carried]
      simp only [Span.billion] at *
      omega
    · cases ends
      have longer : now.nano ≤ ((now.nano : Int) + rest).toNat := by omega
      exact .inr ⟨rfl, longer⟩
  · have ordinary : now.nano < 1000000000 := by simpa [isLeap] using leap
    simp only [leap, Bool.false_eq_true, ↓reduceIte] at ends
    rw [inRange?_eq_some ends, carried]
    simp only [Span.billion] at *
    omega

theorem plus?_second_lt {now later : Instant} {grace : Span} (long : Span.billion ≤ grace.nanos)
    (ends : now.plus? grace = some later) : now.second < later.second := by
  have forward : 0 ≤ grace.nanos := Int.le_trans (by decide) long
  have whole := second_add_le forward ends
  simp only [Span.billion] at *
  omega

theorem now_lt_stamped {now later : Instant} {grace : Span} (long : Span.billion ≤ grace.nanos)
    (ends : now.plus? grace = some later) : now < later.stamped :=
  lt_stamped (plus?_second_lt long ends)

end Instant

end IngressControl
