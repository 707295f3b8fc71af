import IngressControl.Certificate.Selection
import IngressControl.Proofs.Attempt
/-!
Looking up a certificate always ends, with one failure at most to tell, as long as the last week
of each certificate can be dated.
-/

namespace IngressControl.Certificate

def Datable (certificate : Certificate) : Prop :=
  ∃ threshold, certificate.notAfter.minus? nearExpiry = some threshold

theorem expiresWithin_ok {certificate : Certificate} (datable : certificate.Datable)
    (now : Instant) : ∃ near, certificate.expiresWithin now nearExpiry = .ok near := by
  obtain ⟨threshold, dated⟩ := datable
  exact ⟨_, by rw [expiresWithin, dated]⟩

theorem winsTie_ok {candidate certificate : Certificate} (candidate_datable : candidate.Datable)
    (datable : certificate.Datable) (now : Instant) :
    ∃ wins, winsTie candidate certificate now = .ok wins := by
  obtain ⟨near, expiring⟩ := expiresWithin_ok datable now
  obtain ⟨candidate_near, candidate_expiring⟩ := expiresWithin_ok candidate_datable now
  rw [winsTie, expiring, candidate_expiring]
  split
  · exact ⟨_, rfl⟩
  · split
    · exact ⟨_, rfl⟩
    · exact ⟨_, rfl⟩

theorem replaces_ok {candidate : Candidate} {certificate : Certificate}
    (candidate_datable : candidate.certificate.Datable) (datable : certificate.Datable)
    (length : Nat) (now : Instant) : ∃ wins, replaces candidate certificate length now = .ok wins := by
  obtain ⟨near, expiring⟩ := expiresWithin_ok datable now
  obtain ⟨candidate_near, candidate_expiring⟩ := expiresWithin_ok candidate_datable now
  rw [replaces, expiring, candidate_expiring]
  split
  · exact ⟨_, rfl⟩
  · split
    · exact winsTie_ok candidate_datable datable now
    · cases candidate_near with
      | false => exact ⟨_, rfl⟩
      | true => exact ⟨_, rfl⟩

theorem better_ok {found : Option Candidate} {certificate : Certificate}
    (prior : ∀ candidate ∈ found, candidate.certificate.Datable) (datable : certificate.Datable)
    (length : Nat) (now : Instant) :
    ∃ candidate, better found certificate length now = .ok (some candidate) ∧
      candidate.certificate.Datable := by
  cases found with
  | none => exact ⟨_, rfl, datable⟩
  | some candidate =>
      obtain ⟨wins, decided⟩ := replaces_ok (prior candidate rfl) datable length now
      rw [better, decided]
      cases wins with
      | true => exact ⟨_, rfl, datable⟩
      | false => exact ⟨_, rfl, prior candidate rfl⟩

theorem compete_ok {rows : List (Certificate × String)} {found : Option Candidate} (now : Instant)
    (prior : ∀ candidate ∈ found, candidate.certificate.Datable)
    (datable : ∀ row ∈ rows, row.1.Datable) : ∃ winner, compete now found rows = .ok winner := by
  induction rows generalizing found with
  | nil => exact ⟨found, rfl⟩
  | cons row rest ih =>
      obtain ⟨certificate, pattern⟩ := row
      obtain ⟨candidate, decided, candidate_datable⟩ :=
        better_ok prior (datable _ (List.mem_cons_self ..)) pattern.utf8ByteSize now
      obtain ⟨winner, competed⟩ := @ih (some candidate)
        (fun _ same => Option.some.inj same ▸ candidate_datable)
        (fun other member => datable other (List.mem_cons_of_mem _ member))
      exact ⟨winner, by rw [compete, decided]; exact competed⟩

theorem best_ok {certificates : List Certificate} (hostname : String) (now : Instant)
    (datable : ∀ certificate ∈ certificates, certificate.Datable) :
    ∃ choice, best certificates hostname now = .ok choice := by
  have competing : ∀ row ∈ matching certificates hostname now, row.1.Datable := by
    rintro ⟨certificate, pattern⟩ member
    simp only [matching, List.mem_flatMap, List.mem_filter, List.mem_map] at member
    obtain ⟨_, ⟨present, _⟩, _, _, same⟩ := member
    cases same
    exact datable certificate present
  have prior : ∀ candidate ∈ (none : Option Candidate), candidate.certificate.Datable := by simp
  obtain ⟨winner, competed⟩ := compete_ok now prior competing
  rw [best, best?, competed]
  cases winner with
  | none => exact ⟨_, rfl⟩
  | some candidate => exact ⟨_, rfl⟩

theorem best_eq_error {certificates : List Certificate} {hostname : String} {now : Instant}
    {failure : Failure} (failed : best certificates hostname now = .ok (.error failure)) :
    failure = .noMatchingCertificate hostname := by
  rw [best, Attempt.bind_eq_ok_iff] at failed
  obtain ⟨choice, _, decided⟩ := failed
  cases choice with
  | none => cases decided; rfl
  | some certificate => cases decided

end IngressControl.Certificate
