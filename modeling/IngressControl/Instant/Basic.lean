import IngressControl.Instant.Calendar
/-!
Points in time and the spans between them.

A moment inside a leap second has a fraction of a second and more behind the last ordinary
second. Sums stay within the years from -262143 to 262142, and spans within the milliseconds
that eight bytes hold; what leaves them is no moment and no span.
-/

namespace IngressControl

structure Span where
  nanos : Int
  deriving DecidableEq, Repr

namespace Span

def billion : Int := 1000000000

instance : LE Span := ⟨fun first second => first.nanos ≤ second.nanos⟩
instance : LT Span := ⟨fun first second => first.nanos < second.nanos⟩

instance (first second : Span) : Decidable (first ≤ second) :=
  inferInstanceAs (Decidable (first.nanos ≤ second.nanos))

instance (first second : Span) : Decidable (first < second) :=
  inferInstanceAs (Decidable (first.nanos < second.nanos))

def zero : Span := ⟨0⟩

def greatest : Span := ⟨0x7FFFFFFFFFFFFFFF * 1000000⟩

def milliseconds (count : Int) : Span := ⟨count * 1000000⟩

def days (count : Int) : Span := ⟨count * 86400 * billion⟩

def checked? (span : Span) : Option Span :=
  if -greatest.nanos ≤ span.nanos ∧ span.nanos ≤ greatest.nanos then some span else none

def seconds? (count : Int) : Option Span :=
  if -9223372036854775 ≤ count ∧ count ≤ 9223372036854775 then some ⟨count * billion⟩ else none

def opposite (span : Span) : Span := ⟨-span.nanos⟩

def minus? (first second : Span) : Option Span := checked? ⟨first.nanos - second.nanos⟩

def max (first second : Span) : Span := if first.nanos ≤ second.nanos then second else first

end Span

/-- A moment: whole seconds from 1970-01-01T00:00:00Z and nanoseconds behind them, 10^9 and
more of those inside a leap second. -/
structure Instant where
  second : Int
  nano : Nat
  deriving DecidableEq, Repr, Inhabited

namespace Instant

instance : LE Instant :=
  ⟨fun first second => first.second < second.second
    ∨ (first.second = second.second ∧ first.nano ≤ second.nano)⟩

instance : LT Instant :=
  ⟨fun first second => first.second < second.second
    ∨ (first.second = second.second ∧ first.nano < second.nano)⟩

instance (first second : Instant) : Decidable (first ≤ second) :=
  inferInstanceAs (Decidable (_ ∨ _))

instance (first second : Instant) : Decidable (first < second) :=
  inferInstanceAs (Decidable (_ ∨ _))

theorem le_def {first second : Instant} : first ≤ second ↔ first.second < second.second
    ∨ (first.second = second.second ∧ first.nano ≤ second.nano) := Iff.rfl

theorem lt_def {first second : Instant} : first < second ↔ first.second < second.second
    ∨ (first.second = second.second ∧ first.nano < second.nano) := Iff.rfl

theorem not_lt {first second : Instant} : ¬ first < second ↔ second ≤ first := by
  rw [lt_def, le_def]
  omega

theorem le_trans {first second third : Instant} (lower : first ≤ second) (upper : second ≤ third) :
    first ≤ third := by
  rw [le_def] at lower upper ⊢
  omega

def leastYear : Int := -262143

def greatestYear : Int := 262142

def leastSecond : Int := (Date.number ⟨leastYear, 1, 1⟩) * 86400

def greatestSecond : Int := (Date.number ⟨greatestYear, 12, 31⟩) * 86400 + 86399

def inRange? (moment : Instant) : Option Instant :=
  if leastSecond ≤ moment.second ∧ moment.second ≤ greatestSecond then some moment else none

/-- Seconds since midnight, the leap second counted as the last ordinary one. -/
def secondOfDay (moment : Instant) : Int := moment.second % 86400

def isLeap (moment : Instant) : Bool := 1000000000 ≤ moment.nano

def carried (second nano : Int) : Instant :=
  ⟨second + nano / Span.billion, (nano % Span.billion).toNat⟩

/-- The moment a span later. A leap second is left by any whole second, and by a fraction that
runs over its end; otherwise the moment stays inside it. -/
def plus? (moment : Instant) (span : Span) : Option Instant :=
  let seconds := span.nanos.tdiv Span.billion
  let fraction := span.nanos.tmod Span.billion
  let nano : Int := moment.nano
  if moment.isLeap then
    -- Behind the leap second its length no longer counts.
    if 0 < seconds ∨ (0 < fraction ∧ 2 * Span.billion - fraction ≤ nano) then
      (carried (moment.second + seconds) (nano - Span.billion + fraction)).inRange?
    -- In front of it the leap second counts as the start of the next one.
    else if seconds < 0 then
      (carried (moment.second + 1 + seconds) (nano - Span.billion + fraction)).inRange?
    else some ⟨moment.second, (nano + fraction).toNat⟩
  else (carried (moment.second + seconds) (nano + fraction)).inRange?

def minus? (moment : Instant) (span : Span) : Option Instant := moment.plus? span.opposite

/-- The span from `earlier` to `later`. A leap second between the two times of day counts. -/
def since (later earlier : Instant) : Span :=
  let leap : Int :=
    if earlier.secondOfDay < later.secondOfDay ∧ earlier.isLeap then 1
    else if later.secondOfDay < earlier.secondOfDay ∧ later.isLeap then -1
    else 0
  ⟨(later.second - earlier.second + leap) * Span.billion + (later.nano - earlier.nano)⟩

end Instant

end IngressControl
