import IngressControl.Proofs.Certificate.Selection
/-!
The order in which certificates are preferred.

Candidates rank by the length of the pattern, then by the start and the end of the validity. What
takes the place of a candidate follows this order between certificates in front of their last
week, and such a certificate takes the place of any other. Both hold as long as certificates enter
their last week in the order in which they end.
-/

namespace IngressControl

theorem Instant.eq_iff {first second : Instant} :
    first = second ↔ first.second = second.second ∧ first.nano = second.nano := by
  cases first
  cases second
  exact Instant.mk.injEq .. ▸ Iff.rfl

theorem Instant.lt_trichotomy (first second : Instant) :
    first < second ∨ first = second ∨ second < first := by
  rw [lt_def, eq_iff, lt_def]
  omega

namespace Certificate

variable {now : Instant}

def Fresh (now : Instant) (certificate : Certificate) : Prop :=
  certificate.expiresWithin now nearExpiry = .ok false

/-- Of two certificates the one that ends later does not enter its last week earlier. -/
def Aligned (certificates : List Certificate) : Prop :=
  ∀ first ∈ certificates, ∀ second ∈ certificates, first.notAfter < second.notAfter →
    ∀ start start', first.notAfter.minus? nearExpiry = some start →
      second.notAfter.minus? nearExpiry = some start' → start ≤ start'

/-- The first candidate has the longer pattern, or was issued later, or else ends later. -/
def Candidate.Outranks (first second : Candidate) : Prop :=
  second.length < first.length ∨ first.length = second.length ∧
    (second.certificate.notBefore < first.certificate.notBefore ∨
      first.certificate.notBefore = second.certificate.notBefore ∧
        second.certificate.notAfter < first.certificate.notAfter)

namespace Candidate

theorem not_outranks_self (candidate : Candidate) : ¬ candidate.Outranks candidate := by
  simp only [Outranks, Instant.lt_def]
  omega

theorem outranks_asymm {first second : Candidate} (above : first.Outranks second) :
    ¬ second.Outranks first := by
  simp only [Outranks, Instant.lt_def, Instant.eq_iff] at above ⊢
  omega

theorem outranks_of_not_outranks {first second third : Candidate} (above : first.Outranks second)
    (below : ¬ third.Outranks second) : first.Outranks third := by
  simp only [Outranks, Instant.lt_def, Instant.eq_iff] at above below ⊢
  omega

theorem same_validity {first second : Candidate} (below : ¬ first.Outranks second)
    (below' : ¬ second.Outranks first) :
    first.certificate.notBefore = second.certificate.notBefore ∧
      first.certificate.notAfter = second.certificate.notAfter := by
  simp only [Outranks, Instant.lt_def, Instant.eq_iff] at below below' ⊢
  omega

end Candidate

theorem expiresWithin_eq {certificate : Certificate} {start : Instant}
    (dated : certificate.notAfter.minus? nearExpiry = some start) :
    certificate.expiresWithin now nearExpiry = .ok (decide (start < now)) := by
  rw [expiresWithin, dated]

theorem fresh_or_near {certificate : Certificate} (now : Instant) (datable : certificate.Datable) :
    Fresh now certificate ∨ certificate.expiresWithin now nearExpiry = .ok true := by
  obtain ⟨near, expiring⟩ := expiresWithin_ok datable now
  rw [Fresh, expiring]
  cases near with
  | false => exact .inl rfl
  | true => exact .inr rfl

/-- A certificate in its last week ends before any that is not. -/
theorem near_ends_first {certificates : List Certificate} (aligned : Aligned certificates)
    {near fresh : Certificate} (present : near ∈ certificates) (present' : fresh ∈ certificates)
    (datable : near.Datable) (datable' : fresh.Datable)
    (expiring : near.expiresWithin now nearExpiry = .ok true) (lasting : Fresh now fresh) :
    near.notAfter < fresh.notAfter := by
  obtain ⟨start, dated⟩ := datable
  obtain ⟨start', dated'⟩ := datable'
  rw [expiresWithin_eq dated, Except.ok.injEq, decide_eq_true_eq] at expiring
  rw [Fresh, expiresWithin_eq dated', Except.ok.injEq, decide_eq_false_iff_not] at lasting
  rcases Instant.lt_trichotomy near.notAfter fresh.notAfter with before | same | behind
  · exact before
  · rw [same, dated', Option.some.injEq] at dated
    exact absurd (dated ▸ expiring) lasting
  -- The other way round, the last week that has begun would start behind the one that has not.
  · have order := aligned fresh present' near present behind start' start dated' dated
    simp only [Instant.lt_def, Instant.le_def] at expiring lasting order
    omega

variable {certificate : Certificate}

theorem replaces_of_fresh (candidate : Candidate) (length : Nat)
    (lasting : Fresh now candidate.certificate)
    (lasting' : Fresh now certificate) :
    ∃ wins, replaces candidate certificate length now = .ok wins ∧
      (wins = true ↔ Candidate.Outranks ⟨certificate, length⟩ candidate) := by
  rw [Fresh] at lasting lasting'
  by_cases longer : candidate.length < length
  · refine ⟨true, ?_, by simp [Candidate.Outranks, longer]⟩
    rw [replaces, if_pos longer, lasting']
    rfl
  · by_cases level : length = candidate.length
    · by_cases newer : candidate.certificate.notBefore < certificate.notBefore
      · refine ⟨true, ?_, by simp [Candidate.Outranks, level, newer]⟩
        rw [replaces, if_neg longer, if_pos level, winsTie, if_pos newer, lasting']
        rfl
      · by_cases same : certificate.notBefore = candidate.certificate.notBefore
        · refine ⟨decide (candidate.certificate.notAfter < certificate.notAfter), ?_, ?_⟩
          · rw [replaces, if_neg longer, if_pos level, winsTie, if_neg newer, if_pos same]
            rfl
          · rw [same] at newer
            simp [Candidate.Outranks, level, same, newer]
        · refine ⟨false, ?_, by simp [Candidate.Outranks, level, newer, same]⟩
          rw [replaces, if_neg longer, if_pos level, winsTie, if_neg newer, if_neg same, lasting]
          rfl
    · refine ⟨false, ?_, by simp [Candidate.Outranks, longer, level]⟩
      rw [replaces, if_neg longer, if_neg level, lasting]
      rfl

theorem replaces_of_near (candidate : Candidate) (length : Nat)
    (lasting : Fresh now candidate.certificate)
    (expiring : certificate.expiresWithin now nearExpiry = .ok true)
    (first : certificate.notAfter < candidate.certificate.notAfter) :
    replaces candidate certificate length now = .ok false := by
  rw [Fresh] at lasting
  by_cases longer : candidate.length < length
  · rw [replaces, if_pos longer, expiring]
    rfl
  · rw [replaces, if_neg longer]
    by_cases level : length = candidate.length
    · have ends_before : ¬ candidate.certificate.notAfter < certificate.notAfter := by
        simp only [Instant.lt_def] at first ⊢
        omega
      rw [if_pos level, winsTie, expiring, lasting]
      by_cases newer : candidate.certificate.notBefore < certificate.notBefore
      · rw [if_pos newer]
        rfl
      · rw [if_neg newer]
        by_cases same : certificate.notBefore = candidate.certificate.notBefore
        · rw [if_pos same, decide_eq_false ends_before]
          rfl
        · rw [if_neg same]
          rfl
    · rw [if_neg level, lasting]
      rfl

theorem replaces_near (candidate : Candidate) (length : Nat)
    (expiring : candidate.certificate.expiresWithin now nearExpiry = .ok true)
    (lasting : Fresh now certificate)
    (first : candidate.certificate.notAfter < certificate.notAfter) :
    replaces candidate certificate length now = .ok true := by
  rw [Fresh] at lasting
  by_cases longer : candidate.length < length
  · rw [replaces, if_pos longer, lasting]
    rfl
  · rw [replaces, if_neg longer]
    by_cases level : length = candidate.length
    · rw [if_pos level, winsTie, expiring, lasting, decide_eq_true first]
      by_cases newer : candidate.certificate.notBefore < certificate.notBefore
      · rw [if_pos newer]
        rfl
      · rw [if_neg newer]
        by_cases same : certificate.notBefore = candidate.certificate.notBefore
        · rw [if_pos same]
          rfl
        · rw [if_neg same]
          rfl
    · rw [if_neg level, expiring, lasting]
      rfl

end Certificate

end IngressControl
