import IngressControl.Instant.Calendar
/-!
Every number is the number of one real date.

A day of an era lies in the year that its division yields: the division rises with the day, and is
right on the first and the last day of each of the four hundred years. Within a year the months
are a table of 366 days.
-/

namespace IngressControl.Date

/-- Days of an era in front of a year, counted from March. -/
def yearStart (year : Int) : Int := 365 * year + year / 4 - year / 100 + year / 400

def eraYear (ofEra : Int) : Int :=
  (ofEra - ofEra / 1460 + ofEra / 36524 - ofEra / 146096) / 365

theorem eraYear_mono {first second : Int} (below : first ≤ second) :
    eraYear first ≤ eraYear second := by
  have cycles : first - first / 1460 ≤ second - second / 1460 := by omega
  have centuries : first / 36524 - first / 36524 / 4 ≤ second / 36524 - second / 36524 / 4 := by
    have rising : first / 36524 ≤ second / 36524 := Int.ediv_le_ediv (by decide) below
    omega
  rw [Int.ediv_ediv_of_nonneg (by decide), Int.ediv_ediv_of_nonneg (by decide)] at centuries
  rw [eraYear, eraYear]
  apply Int.ediv_le_ediv (by decide)
  omega

theorem eraYear_at_ends : ∀ year < 400, eraYear (yearStart (year : Nat)) = year ∧
    eraYear (yearStart (year + 1 : Nat) - 1) = year := by decide +kernel

theorem eraYear_bounds {ofEra : Int} (least : 0 ≤ ofEra) (most : ofEra < 146097) :
    0 ≤ eraYear ofEra ∧ eraYear ofEra ≤ 399 := by
  have first : eraYear 0 ≤ eraYear ofEra := eraYear_mono least
  have last : eraYear ofEra ≤ eraYear 146096 := eraYear_mono (by omega)
  exact ⟨first, last⟩

theorem yearStart_eraYear {ofEra : Int} (least : 0 ≤ ofEra) (most : ofEra < 146097) :
    yearStart (eraYear ofEra) ≤ ofEra ∧ ofEra < yearStart (eraYear ofEra + 1) := by
  obtain ⟨low, high⟩ := eraYear_bounds least most
  obtain ⟨year, same⟩ := Int.eq_ofNat_of_zero_le low
  rw [same] at high ⊢
  constructor
  · cases year with
    | zero => exact least
    | succ year =>
        -- A day in front of the year would be at most the last day of the year before.
        apply Int.not_lt.mp
        intro before
        have late := (eraYear_at_ends year (by omega)).2
        have rising : eraYear ofEra ≤ eraYear (yearStart (year + 1 : Nat) - 1) :=
          eraYear_mono (Int.le_sub_one_of_lt before)
        omega
  · by_cases last : year = 399
    · subst last
      exact most
    · apply Int.not_le.mp
      intro behind
      have early := (eraYear_at_ends (year + 1) (by omega)).1
      have rising : eraYear (yearStart (year + 1 : Nat)) ≤ eraYear ofEra := eraYear_mono behind
      omega

def ofMarchYear (year : Int) (ofYear : Nat) : Date :=
  let month := (5 * ofYear + 2) / 153
  let day := ofYear - (153 * month + 2) / 5 + 1
  if month < 10 then ⟨year, month + 3, day⟩ else ⟨year + 1, month - 9, day⟩

/-- Twelve months cover the days, and only the last day of all needs a leap year. -/
theorem months_of_year : ∀ ofYear < 366,
    let month := (5 * ofYear + 2) / 153
    let day := ofYear - (153 * month + 2) / 5 + 1
    month ≤ 11 ∧ (153 * month + 2) / 5 ≤ ofYear ∧
      (month < 10 → day ≤ monthLength 0 (month + 3)) ∧
      (10 ≤ month → day ≤ monthLength 0 (month - 9)) ∧
      (month = 11 → ofYear ≠ 365 → day ≤ 28) := by decide +kernel

theorem monthLength_of_ne {month : Nat} (other : month ≠ 2) (first second : Int) :
    monthLength first month = monthLength second month := by
  simp [monthLength, other]

theorem exists_ofMarchYear {year : Int} {ofYear : Nat} (inside : ofYear < 366)
    (leap : ofYear = 365 → isLeapYear (year + 1) = true) :
    exists? (ofMarchYear year ofYear).year (ofMarchYear year ofYear).month
      (ofMarchYear year ofYear).day = some (ofMarchYear year ofYear) := by
  obtain ⟨twelve, _, early, late, short⟩ := months_of_year ofYear inside
  generalize named : (5 * ofYear + 2) / 153 = month at twelve early late short
  rw [ofMarchYear, named]
  by_cases front : month < 10
  · have fits := early front
    rw [monthLength_of_ne (by omega) 0 year] at fits
    simp only [front, ↓reduceIte]
    rw [exists?, if_pos ⟨by omega, by omega, by omega, fits⟩]
  · have fits := late (Nat.not_lt.mp front)
    simp only [front, ↓reduceIte]
    refine if_pos ⟨by omega, by omega, by omega, ?_⟩
    -- The year ends in February, the only month whose length depends on the year.
    by_cases february : month = 11
    · subst february
      by_cases last : ofYear = 365
      · subst last
        simp [monthLength, leap]
      · have low : 28 ≤ monthLength (year + 1) 2 := by
          rw [monthLength, if_pos rfl]
          split <;> omega
        exact Nat.le_trans (short rfl last) low
    · rwa [monthLength_of_ne (by omega) 0 (year + 1)] at fits

theorem number_ofMarchYear {year : Int} {ofYear : Nat} (inside : ofYear < 366) :
    (ofMarchYear year ofYear).number = year / 400 * 146097
      + (year % 400 * 365 + year % 400 / 4 - year % 400 / 100 + ofYear) - 719468 := by
  obtain ⟨twelve, below, _⟩ := months_of_year ofYear inside
  generalize named : (5 * ofYear + 2) / 153 = month at twelve below
  rw [ofMarchYear, named]
  by_cases front : month < 10
  · have late : ¬ month + 3 ≤ 2 := by omega
    simp only [front, ↓reduceIte, number, late]
    omega
  · have early : month - 9 ≤ 2 := by omega
    simp only [front, ↓reduceIte, number, early, Int.add_sub_cancel]
    omega

theorem ofMarchYear_eq {year : Int} {ofYear : Nat} (inside : ofYear < 366) :
    ofMarchYear year ofYear
      = let month := (5 * (ofYear : Int) + 2) / 153
        let day := (ofYear : Int) - (153 * month + 2) / 5 + 1
        if month < 10 then ⟨year, (month + 3).toNat, day.toNat⟩
        else ⟨year + 1, (month - 9).toNat, day.toNat⟩ := by
  obtain ⟨twelve, below, _⟩ := months_of_year ofYear inside
  have months : (5 * (ofYear : Int) + 2) / 153 = ((5 * ofYear + 2) / 153 : Nat) := by omega
  rw [ofMarchYear, months]
  generalize (5 * ofYear + 2) / 153 = month at twelve below
  have days : (153 * (month : Int) + 2) / 5 = ((153 * month + 2) / 5 : Nat) := by omega
  simp only [days]
  generalize (153 * month + 2) / 5 = before at below
  by_cases front : month < 10
  · rw [if_pos front, if_pos (by omega)]
    simp only [mk.injEq, true_and]
    constructor <;> omega
  · rw [if_neg front, if_neg (by omega)]
    simp only [mk.injEq, true_and]
    constructor <;> omega

theorem isLeapYear_era (year era : Int) :
    isLeapYear (year + era * 400) = isLeapYear year := by
  simp only [isLeapYear]
  congr 1
  · simp only [decide_eq_decide]
    omega
  · congr 1 <;> simp only [decide_eq_decide] <;> omega

theorem isLeapYear_of_long : ∀ year < 400,
    yearStart (year : Nat) + 365 < yearStart (year + 1 : Nat) → isLeapYear (year + 1 : Nat) = true := by
  decide +kernel

theorem ofNumber_eq (number : Int) : ∃ era : Int, ∃ year ofYear : Nat, year < 400 ∧ ofYear < 366 ∧
    (ofYear = 365 → isLeapYear (year + 1 : Nat) = true) ∧
    number + 719468 = era * 146097 + (365 * year + year / 4 - year / 100 + ofYear) ∧
    ofNumber number = ofMarchYear (year + era * 400) ofYear := by
  let ofEra := (number + 719468) % 146097
  have least : 0 ≤ ofEra := Int.emod_nonneg _ (by decide)
  have most : ofEra < 146097 := Int.emod_lt_of_pos _ (by decide)
  have split : number + 719468 = (number + 719468) / 146097 * 146097 + ofEra := by
    have whole := Int.mul_ediv_add_emod (number + 719468) 146097
    omega
  obtain ⟨first, last⟩ := eraYear_bounds least most
  obtain ⟨start, finish⟩ := yearStart_eraYear least most
  obtain ⟨year, same⟩ := Int.eq_ofNat_of_zero_le first
  rw [same] at last start finish
  obtain ⟨ofYear, rest⟩ := Int.le.dest start
  have width : yearStart (year + 1) ≤ yearStart year + 366 := by
    simp only [yearStart]
    omega
  refine ⟨(number + 719468) / 146097, year, ofYear, by omega, by omega, ?_, ?_, ?_⟩
  · intro final
    apply isLeapYear_of_long year (by omega)
    push_cast
    omega
  · rw [yearStart] at rest
    omega
  · have day : ofEra - (365 * (year : Int) + year / 4 - year / 100) = ofYear := by
      rw [yearStart] at rest
      omega
    rw [ofMarchYear_eq (by omega), ← day, ← same]
    rfl

theorem exists_ofNumber (number : Int) :
    exists? (ofNumber number).year (ofNumber number).month (ofNumber number).day
      = some (ofNumber number) := by
  obtain ⟨era, year, ofYear, _, inside, leap, _, same⟩ := ofNumber_eq number
  rw [same]
  apply exists_ofMarchYear inside
  intro last
  have shifted : (year : Int) + era * 400 + 1 = (year + 1 : Nat) + era * 400 := by
    push_cast
    omega
  rw [shifted, isLeapYear_era]
  exact leap last

theorem number_ofNumber (number : Int) : (ofNumber number).number = number := by
  obtain ⟨era, year, ofYear, four, inside, _, whole, same⟩ := ofNumber_eq number
  rw [same, number_ofMarchYear inside]
  have ofEra : ((year : Int) + era * 400) % 400 = year := by omega
  have eras : ((year : Int) + era * 400) / 400 = era := by omega
  rw [ofEra, eras]
  omega

end IngressControl.Date
