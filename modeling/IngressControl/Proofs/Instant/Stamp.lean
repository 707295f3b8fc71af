import IngressControl.Proofs.Attempt
import IngressControl.Proofs.Instant.Calendar
import IngressControl.Proofs.Instant.Digits
/-!
The stamp of a moment with a year of four digits is read back in the strict form.

What comes back is the moment without its fraction. A leap second that does not stand behind
second fifty-nine is written like the next ordinary second and comes back as that.
-/

namespace IngressControl

namespace Instant

def date (moment : Instant) : Date := Date.ofNumber (moment.second / 86400)

def HasPlainYear (moment : Instant) : Prop := 0 ≤ moment.date.year ∧ moment.date.year ≤ 9999

def wholeSecond (moment : Instant) : Instant :=
  ⟨moment.second, if moment.isLeap then 1000000000 else 0⟩

def stamped (moment : Instant) : Instant :=
  if moment.isLeap ∧ moment.second % 60 ≠ 59 then ⟨moment.second + 1, 0⟩ else moment.wholeSecond

theorem wholeSecond_le_stamped (moment : Instant) : moment.wholeSecond ≤ moment.stamped := by
  rw [stamped, le_def]
  split
  · exact .inl (Int.lt_succ _)
  · exact .inr ⟨rfl, Nat.le_refl _⟩

def hour (moment : Instant) : Nat := moment.secondOfDay.toNat / 3600
def minute (moment : Instant) : Nat := moment.secondOfDay.toNat / 60 % 60
def shownSecond (moment : Instant) : Nat :=
  moment.secondOfDay.toNat % 60 + if moment.isLeap then 1 else 0

theorem secondOfDay_bounds (moment : Instant) :
    0 ≤ moment.secondOfDay ∧ moment.secondOfDay < 86400 :=
  ⟨Int.emod_nonneg _ (by decide), Int.emod_lt_of_pos _ (by decide)⟩

theorem clock_bounds (moment : Instant) :
    moment.hour < 24 ∧ moment.minute < 60 ∧ moment.shownSecond ≤ 60 := by
  have bounds := moment.secondOfDay_bounds
  refine ⟨?_, ?_, ?_⟩
  · rw [hour]
    omega
  · rw [minute]
    omega
  · rw [shownSecond]
    split <;> omega

end Instant

namespace Date

theorem exists?_eq_some {date : Date} (real : exists? date.year date.month date.day = some date) :
    1 ≤ date.month ∧ date.month ≤ 12 ∧ 1 ≤ date.day ∧ date.day ≤ 31 := by
  rw [exists?] at real
  split at real
  · rename_i inside
    obtain ⟨first, last, least, most⟩ := inside
    have short : monthLength date.year date.month ≤ 31 := by
      rw [monthLength]
      split
      · split <;> decide
      · split <;> decide
    omega
  · cases real

theorem number_bounds {number : Int} (first : 0 ≤ (ofNumber number).year)
    (last : (ofNumber number).year ≤ 9999) : -800000 ≤ number ∧ number ≤ 3000000 := by
  obtain ⟨era, year, ofYear, four, inside, _, whole, same⟩ := ofNumber_eq number
  have years : (ofNumber number).year = year + era * 400 ∨
      (ofNumber number).year = year + era * 400 + 1 := by
    rw [same, ofMarchYear]
    split
    · exact .inl rfl
    · exact .inr rfl
  omega

end Date

namespace Instant

theorem toList_secondText {moment : Instant} (plain : moment.HasPlainYear) :
    moment.secondText.toList = lastDigits 4 moment.date.year.toNat ++ '-'
      :: (lastDigits 2 moment.date.month ++ '-' :: (lastDigits 2 moment.date.day ++ 'T'
      :: (lastDigits 2 moment.hour ++ ':' :: (lastDigits 2 moment.minute ++ ':'
      :: (lastDigits 2 moment.shownSecond ++ ['Z']))))) := by
  have real : Date.exists? moment.date.year moment.date.month moment.date.day = some moment.date :=
    Date.exists_ofNumber (moment.second / 86400)
  obtain ⟨_, month, _, day⟩ := Date.exists?_eq_some real
  obtain ⟨hour, minute, second⟩ := moment.clock_bounds
  have four : 0 ≤ moment.date.year ∧ moment.date.year ≤ 9999 := plain
  have text : moment.secondText = padded 4 moment.date.year.toNat ++ "-"
      ++ padded 2 moment.date.month ++ "-" ++ padded 2 moment.date.day ++ "T"
      ++ padded 2 moment.hour ++ ":" ++ padded 2 moment.minute ++ ":"
      ++ padded 2 moment.shownSecond ++ "Z" := by
    have year : yearText moment.date.year = padded 4 moment.date.year.toNat := by
      rw [yearText, if_pos four]
    rw [← year]
    rfl
  have pair {value : Nat} (below : value < 100) : (padded 2 value).toList = lastDigits 2 value :=
    toList_padded (by decide) below
  have year : (padded 4 moment.date.year.toNat).toList = lastDigits 4 moment.date.year.toNat :=
    toList_padded (by decide) (by omega)
  rw [text]
  simp only [String.toList_append, year, pair (by omega : moment.date.month < 100),
    pair (by omega : moment.date.day < 100), pair (by omega : moment.hour < 100),
    pair (by omega : moment.minute < 100), pair (by omega : moment.shownSecond < 100),
    List.append_assoc]
  rfl

theorem secondText_size {moment : Instant} (plain : moment.HasPlainYear) :
    19 ≤ moment.secondText.utf8ByteSize := by
  have long := Stamp.length_le_bytes moment.secondText.toList
  rw [Stamp.bytes, String.ofList_toList, toList_secondText plain] at long
  simp only [List.length_append, List.length_cons, lastDigits_length, List.length_nil] at long
  omega

theorem clock_sum (moment : Instant) : moment.second = moment.date.number * 86400
    + (moment.hour * 3600 + moment.minute * 60 + moment.secondOfDay.toNat % 60) := by
  have number : moment.date.number = moment.second / 86400 := Date.number_ofNumber _
  have bounds := moment.secondOfDay_bounds
  rw [number, hour, minute]
  rw [secondOfDay] at bounds ⊢
  omega

theorem inRange?_near {moment other : Instant} (plain : moment.HasPlainYear)
    (near : moment.second ≤ other.second) (near' : other.second ≤ moment.second + 1) :
    other.inRange? = some other := by
  have least : leastSecond = -8334601228800 := by decide +kernel
  have greatest : greatestSecond = 8210266876799 := by decide +kernel
  obtain ⟨low, high⟩ := Date.number_bounds plain.1 plain.2
  rw [inRange?, if_pos]
  omega

end Instant

namespace Stamp

theorem moment?_eq {fields : Fields} {result : Instant} (second extra : Nat)
    (shown : (if fields.second = 60 then (59, 1000000000) else (fields.second, 0)) = (second, extra))
    (year : fields.isYear = true)
    (whole : result.second = fields.date.number * 86400
      + (fields.hour * 3600 + fields.minute * 60 + second))
    (part : result.nano = fields.nano + extra) (inside : result.inRange? = some result) :
    fields.moment? 0 = .ok result := by
  have same : (⟨fields.date.number * 86400
      + ((fields.hour : Int) * 3600 + fields.minute * 60 + second), fields.nano + extra⟩ : Instant)
        = result := by
    rw [← whole, ← part]
  rw [← same] at inside ⊢
  simp [Fields.moment?, shown, year, inside]

theorem moment?_fields {moment : Instant} (plain : moment.HasPlainYear) :
    ({ date := moment.date, hour := moment.hour, minute := moment.minute
       second := moment.shownSecond, nano := 0 } : Fields).moment? 0 = .ok moment.stamped := by
  have clock := moment.clock_sum
  have short : moment.secondOfDay.toNat % 60 < 60 := Nat.mod_lt _ (by decide)
  have minutes : moment.second % 60 = (moment.secondOfDay.toNat % 60 : Nat) := by
    have low := moment.secondOfDay_bounds.1
    rw [Instant.secondOfDay] at low ⊢
    omega
  have year : Fields.isYear { date := moment.date, hour := moment.hour, minute := moment.minute
                              second := moment.shownSecond, nano := 0 } = true := by
    obtain ⟨first, last⟩ := plain
    have least : Instant.leastYear ≤ moment.date.year := Int.le_trans (by decide) first
    have greatest : moment.date.year ≤ Instant.greatestYear := Int.le_trans last (by decide)
    simp [Fields.isYear, least, greatest]
  rw [Instant.stamped, Instant.wholeSecond]
  by_cases leap : moment.isLeap = true
  · by_cases last : moment.second % 60 = 59
    -- Only at the end of a minute does the stamp show the sixtieth second.
    · have shown : moment.shownSecond = 60 := by
        rw [Instant.shownSecond, if_pos leap]
        omega
      rw [if_neg (by simp [last]), if_pos leap]
      refine moment?_eq 59 1000000000 (by simp [shown]) year ?_ (by simp) ?_
      · simp only
        omega
      · exact Instant.inRange?_near plain (Int.le_refl _) (Int.le_add_one (Int.le_refl _))
    -- A leap second within a minute is shown as the second behind it, which is read back.
    · have shown : moment.shownSecond = moment.secondOfDay.toNat % 60 + 1 := by
        rw [Instant.shownSecond, if_pos leap]
      have ordinary : moment.shownSecond ≠ 60 := by omega
      rw [if_pos ⟨leap, last⟩]
      refine moment?_eq moment.shownSecond 0 (by simp [ordinary]) year ?_ rfl ?_
      · simp only
        omega
      · exact Instant.inRange?_near plain (Int.le_add_one (Int.le_refl _)) (Int.le_refl _)
  · have shown : moment.shownSecond = moment.secondOfDay.toNat % 60 := by
      rw [Instant.shownSecond, if_neg leap, Nat.add_zero]
    have ordinary : moment.shownSecond ≠ 60 := by omega
    rw [if_neg (by simp [leap]), if_neg leap]
    refine moment?_eq moment.shownSecond 0 (by simp [ordinary]) year ?_ rfl ?_
    · simp only
      omega
    · exact Instant.inRange?_near plain (Int.le_refl _) (Int.le_add_one (Int.le_refl _))

theorem digits_pair {value : Nat} (below : value < 100) (rest : List Char) :
    Strict.digits 2 (lastDigits 2 value ++ rest) = .ok (value, rest) :=
  digits_lastDigits below rest

theorem date_lastDigits {date : Date}
    (real : Date.exists? date.year date.month date.day = some date) (first : 0 ≤ date.year)
    (last : date.year ≤ 9999) (rest : List Char) :
    Strict.date (lastDigits 4 date.year.toNat ++ '-' :: (lastDigits 2 date.month ++ '-'
      :: (lastDigits 2 date.day ++ rest))) = .ok (date, rest) := by
  obtain ⟨_, month, _, day⟩ := Date.exists?_eq_some real
  have year : (date.year.toNat : Int) = date.year := Int.toNat_of_nonneg first
  have four : date.year.toNat < 10 ^ 4 := by omega
  refine Attempt.bind_eq_ok_iff.mpr ⟨_, digits_lastDigits four _, ?_⟩
  refine Attempt.bind_eq_ok_iff.mpr ⟨((), _), rfl, ?_⟩
  refine Attempt.bind_eq_ok_iff.mpr ⟨_, digits_pair (by omega) _, ?_⟩
  refine Attempt.bind_eq_ok_iff.mpr ⟨((), _), rfl, ?_⟩
  refine Attempt.bind_eq_ok_iff.mpr ⟨_, digits_pair (by omega) _, ?_⟩
  simp only [year, real]
  rfl

/-- A stamp to the second is read back as the moment without its fraction. -/
theorem strict_secondText {moment : Instant} (plain : moment.HasPlainYear) :
    strict moment.secondText = .ok moment.stamped := by
  have long := Instant.secondText_size plain
  obtain ⟨hour, minute, second⟩ := moment.clock_bounds
  have clock : Fields.isTimeOfDay { date := moment.date, hour := moment.hour
                                    minute := moment.minute, second := moment.shownSecond
                                    nano := 0 } = true := by
    simp [Fields.isTimeOfDay, hour, minute, second]
  have real : Date.exists? moment.date.year moment.date.month moment.date.day = some moment.date :=
    Date.exists_ofNumber (moment.second / 86400)
  rw [strict, if_neg (Nat.not_lt.mpr long), Instant.toList_secondText plain]
  refine Attempt.bind_eq_ok_iff.mpr ⟨_, date_lastDigits real plain.1 plain.2 _, ?_⟩
  refine Attempt.bind_eq_ok_iff.mpr ⟨((), _), rfl, ?_⟩
  refine Attempt.bind_eq_ok_iff.mpr ⟨_, digits_pair (by omega) _, ?_⟩
  refine Attempt.bind_eq_ok_iff.mpr ⟨((), _), rfl, ?_⟩
  refine Attempt.bind_eq_ok_iff.mpr ⟨_, digits_pair (by omega) _, ?_⟩
  refine Attempt.bind_eq_ok_iff.mpr ⟨((), _), rfl, ?_⟩
  refine Attempt.bind_eq_ok_iff.mpr ⟨_, digits_pair (by omega) _, ?_⟩
  refine Attempt.bind_eq_ok_iff.mpr ⟨(0, ['Z']), rfl, ?_⟩
  simp only [clock]
  exact moment?_fields plain

end Stamp

end IngressControl
