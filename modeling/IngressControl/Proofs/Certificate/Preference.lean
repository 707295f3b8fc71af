import Mathlib.Data.List.Nodup
import IngressControl.Proofs.Certificate.Search
/-!
Which certificate is chosen for a hostname.

It is the one of the highest pair that is not in its last week, and so does not depend on the order
of the certificates. Where all pairs are in their last week, the one met first has an advantage that
no longer pattern makes up for, and the order decides.
-/

namespace IngressControl.Certificate

variable {now : Instant} {certificates : List Certificate} {hostname : String}

theorem matching_cons (certificate : Certificate) (rest : List Certificate) :
    matching (certificate :: rest) hostname now
      = matching [certificate] hostname now ++ matching rest hostname now := by
  by_cases valid : certificate.isValidAt now = true <;> simp [matching, valid]

/-- Rows in front of a row belong to its certificate or to one in front, and so behind it. -/
theorem matching_split {rows rows' : List (Certificate × String)} {row : Certificate × String}
    (whole : matching certificates hostname now = rows ++ row :: rows') :
    ∃ before behind, certificates = before ++ row.1 :: behind ∧
      (∀ other ∈ matching before hostname now, other ∈ rows) ∧
      ∀ other ∈ matching (row.1 :: behind) hostname now, other ∈ rows ++ row :: rows' := by
  induction certificates generalizing rows with
  | nil => simp [matching] at whole
  | cons certificate rest ih =>
      have all := whole
      rw [matching_cons, List.append_eq_append_iff] at whole
      have own (other : Certificate × String)
          (member : other ∈ matching [certificate] hostname now) : other.1 = certificate := by
        simpa using (mem_matching.mp member).1
      rcases whole with ⟨front, rfl, rest_rows⟩ | ⟨front, whole, cut⟩
      · obtain ⟨before, behind, rfl, early, late⟩ := ih rest_rows
        refine ⟨certificate :: before, behind, rfl, ?_, ?_⟩
        · intro other member
          rw [matching_cons, List.mem_append] at member
          exact List.mem_append.mpr (member.imp_right (early other))
        · intro other member
          rw [List.append_assoc]
          exact List.mem_append_right _ (late other member)
      · cases front with
        | nil =>
            have rest_rows : matching rest hostname now = [] ++ row :: rows' := cut.symm
            obtain ⟨before, behind, rfl, early, late⟩ := ih rest_rows
            refine ⟨certificate :: before, behind, rfl, ?_, ?_⟩
            · intro other member
              rw [matching_cons, List.mem_append] at member
              rcases member with here | later
              · rw [← List.append_nil rows, ← whole]
                exact here
              · exact absurd (early other later) List.not_mem_nil
            · intro other member
              exact List.mem_append_right _ (by simpa using late other member)
        | cons first front =>
            obtain ⟨rfl, _⟩ := List.cons.inj cut
            have same := own row (by simp [whole])
            refine ⟨[], rest, by rw [same]; rfl, by simp [matching], ?_⟩
            rw [same, all]
            exact fun _ member => member

/-- The certificate is that of the highest pair that is not in its last week, the first in the
order of the certificates among equals. -/
def Prevails (certificates : List Certificate) (hostname : String) (now : Instant)
    (chosen : Certificate) : Prop :=
  ∃ before behind pattern, certificates = before ++ chosen :: behind ∧
    chosen.Suits hostname now pattern ∧ Fresh now chosen ∧
    (∀ other ∈ before, ∀ pattern', other.Suits hostname now pattern' → Fresh now other →
      Candidate.Outranks ⟨chosen, pattern.utf8ByteSize⟩ ⟨other, pattern'.utf8ByteSize⟩) ∧
    ∀ other ∈ chosen :: behind, ∀ pattern', other.Suits hostname now pattern' → Fresh now other →
      ¬ Candidate.Outranks ⟨other, pattern'.utf8ByteSize⟩ ⟨chosen, pattern.utf8ByteSize⟩

theorem prevails_of_isTop {row : Certificate × String}
    (top : IsTop now (matching certificates hostname now) row) :
    Prevails certificates hostname now row.1 := by
  have all := top
  obtain ⟨rows, rows', whole, lasting, above, level⟩ := top
  obtain ⟨before, behind, cut, early, late⟩ := matching_split whole
  have member : (row.1, row.2) ∈ matching certificates hostname now := by simp [whole]
  refine ⟨before, behind, row.2, cut, (mem_matching.mp member).2, lasting, ?_, ?_⟩
  · intro other present pattern suits fresh
    exact above _ (early _ (mem_matching.mpr ⟨present, suits⟩)) fresh
  · intro other present pattern suits fresh higher
    have seen := late (other, pattern) (mem_matching.mpr ⟨present, suits⟩)
    rw [← whole] at seen
    have beats : (Candidate.ofRow (other, pattern)).Outranks (.ofRow row) := higher
    exact Candidate.not_outranks_self _ (outranks_of_top all beats _ seen fresh)

section Outcome

variable (datable : ∀ certificate ∈ certificates, certificate.Datable)
  (aligned : Aligned certificates)

include datable aligned

theorem best_eq_error_iff :
    best certificates hostname now = .ok (.error (.noMatchingCertificate hostname)) ↔
      ∀ certificate ∈ certificates, ∀ pattern, ¬ certificate.Suits hostname now pattern := by
  obtain ⟨winner, leads, found⟩ := best_leads hostname now datable aligned
  rw [found]
  cases winner with
  | none =>
      refine ⟨fun _ certificate present pattern suits => ?_, fun _ => rfl⟩
      have member := mem_matching.mpr ⟨present, suits⟩
      rw [leads.absent rfl] at member
      cases member
  | some candidate =>
      obtain ⟨row, member, rfl⟩ := leads.present candidate rfl
      obtain ⟨present, suits⟩ := mem_matching.mp (show (row.1, row.2) ∈ _ from member)
      refine ⟨nofun, fun unmatched => ?_⟩
      exact absurd suits (unmatched row.1 present row.2)

theorem best_of_matched
    (matched : ∃ certificate ∈ certificates, ∃ pattern, certificate.Suits hostname now pattern) :
    ∃ chosen ∈ certificates, best certificates hostname now = .ok (.ok chosen) ∧
      ∃ pattern, chosen.Suits hostname now pattern := by
  obtain ⟨winner, leads, found⟩ := best_leads hostname now datable aligned
  obtain ⟨certificate, listed, pattern, suits⟩ := matched
  have matching := mem_matching.mpr ⟨listed, suits⟩
  cases winner with
  | none =>
      rw [leads.absent rfl] at matching
      cases matching
  | some candidate =>
      obtain ⟨row, member, rfl⟩ := leads.present candidate rfl
      obtain ⟨present, suits⟩ := mem_matching.mp (show (row.1, row.2) ∈ _ from member)
      exact ⟨row.1, present, found, row.2, suits⟩

theorem best_of_fresh (matched : ∃ certificate ∈ certificates, ∃ pattern,
      certificate.Suits hostname now pattern ∧ Fresh now certificate) :
    ∃ chosen, best certificates hostname now = .ok (.ok chosen) ∧
      Prevails certificates hostname now chosen := by
  obtain ⟨winner, leads, found⟩ := best_leads hostname now datable aligned
  obtain ⟨certificate, listed, pattern, suits, lasting⟩ := matched
  obtain ⟨top, same, isTop⟩ := leads.best ⟨_, mem_matching.mpr ⟨listed, suits⟩, lasting⟩
  rw [same] at found
  exact ⟨top.1, found, prevails_of_isTop isTop⟩

end Outcome

/-- The search fails only when no pair matches. Otherwise it yields the certificate of a pair, and
the prevailing one as soon as one is not in its last week. -/
theorem best_prevails (certificates : List Certificate) (hostname : String) (now : Instant)
    (datable : ∀ certificate ∈ certificates, certificate.Datable)
    (aligned : Aligned certificates) :
    (best certificates hostname now = .ok (.error (.noMatchingCertificate hostname)) ↔
      ∀ certificate ∈ certificates, ∀ pattern, ¬ certificate.Suits hostname now pattern) ∧
    ((∃ certificate ∈ certificates, ∃ pattern, certificate.Suits hostname now pattern) →
      ∃ chosen ∈ certificates, best certificates hostname now = .ok (.ok chosen) ∧
        (∃ pattern, chosen.Suits hostname now pattern) ∧
        ((∃ certificate ∈ certificates, ∃ pattern,
            certificate.Suits hostname now pattern ∧ Fresh now certificate) →
          Prevails certificates hostname now chosen)) := by
  refine ⟨best_eq_error_iff datable aligned, fun matched => ?_⟩
  obtain ⟨chosen, present, found, suits⟩ := best_of_matched datable aligned matched
  refine ⟨chosen, present, found, suits, fun lasting => ?_⟩
  obtain ⟨chosen', found', prevails⟩ := best_of_fresh datable aligned lasting
  rw [found] at found'
  cases found'
  exact prevails

theorem lastWeek_of_ordinary {moment start : Instant} (ordinary : moment.isLeap = false)
    (dated : moment.minus? nearExpiry = some start) :
    start.second = moment.second - 604800 ∧ start.nano = moment.nano := by
  have small : moment.nano < 1000000000 := by simpa [Instant.isLeap] using ordinary
  have whole : moment.minus? nearExpiry
      = (Instant.carried (moment.second - 604800) moment.nano).inRange? := by
    have seconds : nearExpiry.opposite.nanos.tdiv Span.billion = -604800 := by decide
    have rest : nearExpiry.opposite.nanos.tmod Span.billion = 0 := by decide
    rw [Instant.minus?, Instant.plus?, if_neg (by simp [ordinary])]
    simp only [seconds, rest, Int.add_zero]
    rfl
  rw [whole, Instant.inRange?] at dated
  split at dated
  · cases dated
    simp only [Instant.carried, Span.billion]
    omega
  · cases dated

theorem aligned_of_ordinary
    (ordinary : ∀ certificate ∈ certificates, certificate.notAfter.isLeap = false) :
    Aligned certificates := by
  intro first present second present' before start start' dated dated'
  obtain ⟨seconds, nanos⟩ := lastWeek_of_ordinary (ordinary first present) dated
  obtain ⟨seconds', nanos'⟩ := lastWeek_of_ordinary (ordinary second present') dated'
  rw [Instant.lt_def] at before
  rw [Instant.le_def]
  omega

instance (now : Instant) (certificate : Certificate) : Decidable (Fresh now certificate) :=
  inferInstanceAs (Decidable (_ = _))

def renewed : List Certificate :=
  [⟨"exact", ["shop.example.org"], ⟨1700000000, 0⟩, ⟨1772600000, 0⟩⟩,
    ⟨"old", ["*.example.org"], ⟨1760000000, 0⟩, ⟨1790000000, 0⟩⟩,
    ⟨"new", ["*", "*.example.org"], ⟨1770000000, 0⟩, ⟨1800000000, 0⟩⟩]

theorem datable_of_all (dated : certificates.all fun certificate =>
      (certificate.notAfter.minus? nearExpiry).isSome) :
    ∀ certificate ∈ certificates, certificate.Datable := fun certificate member =>
  Option.isSome_iff_exists.mp (List.all_eq_true.mp dated certificate member)

theorem renewed_prevails :
    ∃ chosen ∈ renewed, chosen.id = "new" ∧
      best renewed "shop.example.org" ⟨1772366400, 0⟩ = .ok (.ok chosen) ∧
      Prevails renewed "shop.example.org" ⟨1772366400, 0⟩ chosen := by
  have existing : ∃ certificate ∈ renewed, ∃ pattern,
      certificate.Suits "shop.example.org" ⟨1772366400, 0⟩ pattern ∧
        Fresh ⟨1772366400, 0⟩ certificate :=
    ⟨renewed[1], List.getElem_mem _, "*.example.org", by decide +kernel, by decide +kernel⟩
  have search := best_prevails renewed "shop.example.org" ⟨1772366400, 0⟩
    (datable_of_all (by decide +kernel)) (aligned_of_ordinary (by decide +kernel))
  obtain ⟨certificate, present, pattern, suits, lasting⟩ := existing
  obtain ⟨chosen, listed, found, _, prevails⟩ := search.2 ⟨certificate, present, pattern, suits⟩
  have new : best renewed "shop.example.org" ⟨1772366400, 0⟩ = .ok (.ok renewed[2]) := by
    decide +kernel
  rw [new] at found
  cases found
  exact ⟨renewed[2], listed, rfl, new, prevails ⟨certificate, present, pattern, suits, lasting⟩⟩

def leaping : List Certificate :=
  [⟨"lasting", ["shop.example.org"], ⟨1451606400, 0⟩, ⟨1483228799, 1500000000⟩⟩,
    ⟨"ending", ["shop.example.org"], ⟨1451606400, 0⟩, ⟨1483228800, 0⟩⟩]

/-- Seven days in front of it a leap second counts as the second behind it. The certificate that
ends later is then the first to enter its last week, and it is chosen all the same. -/
theorem ending_chosen_at_leap :
    (∀ certificate ∈ leaping, certificate.Datable) ∧
      (∃ certificate ∈ leaping, ∃ pattern,
        certificate.Suits "shop.example.org" ⟨1482624000, 250000000⟩ pattern ∧
          Fresh ⟨1482624000, 250000000⟩ certificate) ∧
      ¬ ∃ chosen, best leaping "shop.example.org" ⟨1482624000, 250000000⟩ = .ok (.ok chosen) ∧
        Prevails leaping "shop.example.org" ⟨1482624000, 250000000⟩ chosen := by
  refine ⟨datable_of_all (by decide +kernel),
    ⟨leaping[0], List.getElem_mem _, "shop.example.org", by decide +kernel, by decide +kernel⟩, ?_⟩
  rintro ⟨chosen, found, _, _, _, _, _, lasting, _⟩
  have ending : best leaping "shop.example.org" ⟨1482624000, 250000000⟩ = .ok (.ok leaping[1]) := by
    decide +kernel
  have expiring : ¬ Fresh ⟨1482624000, 250000000⟩ leaping[1] := by decide +kernel
  rw [ending] at found
  cases found
  exact expiring lasting

theorem prevails_highest {chosen : Certificate}
    (prevails : Prevails certificates hostname now chosen) :
    chosen ∈ certificates ∧ ∃ pattern, chosen.Suits hostname now pattern ∧ Fresh now chosen ∧
      ∀ other ∈ certificates, ∀ pattern', other.Suits hostname now pattern' → Fresh now other →
        ¬ Candidate.Outranks ⟨other, pattern'.utf8ByteSize⟩ ⟨chosen, pattern.utf8ByteSize⟩ := by
  obtain ⟨before, behind, pattern, rfl, suits, lasting, above, level⟩ := prevails
  refine ⟨by simp, pattern, suits, lasting, fun other present pattern' suits' lasting' => ?_⟩
  rcases List.mem_append.mp present with early | late
  · exact Candidate.outranks_asymm (above other early pattern' suits' lasting')
  · exact level other late pattern' suits' lasting'

/-- As long as a certificate that matches is not in its last week, or none matches, the order of the
certificates does not matter. -/
theorem best_perm (first second : List Certificate) (hostname : String) (now : Instant)
    (order : first.Perm second)
    (distinct : (first.map fun certificate => (certificate.notBefore, certificate.notAfter)).Nodup)
    (datable : ∀ certificate ∈ first, certificate.Datable) (aligned : Aligned first)
    (lasting : (∃ certificate ∈ first, ∃ pattern, certificate.Suits hostname now pattern) →
      ∃ certificate ∈ first, ∃ pattern,
        certificate.Suits hostname now pattern ∧ Fresh now certificate) :
    best first hostname now = best second hostname now := by
  have datable' : ∀ certificate ∈ second, certificate.Datable := fun certificate member =>
    datable certificate (order.mem_iff.mpr member)
  have aligned' : Aligned second := fun certificate member other member' =>
    aligned certificate (order.mem_iff.mpr member) other (order.mem_iff.mpr member')
  by_cases matched : ∃ certificate ∈ first, ∃ pattern, certificate.Suits hostname now pattern
  · obtain ⟨certificate, present, pattern, suits, fresh⟩ := lasting matched
    obtain ⟨chosen, found, prevails⟩ :=
      best_of_fresh datable aligned ⟨certificate, present, pattern, suits, fresh⟩
    obtain ⟨chosen', found', prevails'⟩ := best_of_fresh datable' aligned'
      ⟨certificate, order.mem_iff.mp present, pattern, suits, fresh⟩
    obtain ⟨listed, wide, suits_wide, chosen_fresh, highest⟩ := prevails_highest prevails
    obtain ⟨listed', wide', suits_wide', chosen_fresh', highest'⟩ := prevails_highest prevails'
    -- Neither ranks above the other, so they agree in their validity and are the same.
    obtain ⟨starts, ends⟩ := Candidate.same_validity
      (highest' chosen (order.mem_iff.mp listed) wide suits_wide chosen_fresh)
      (highest chosen' (order.mem_iff.mpr listed') wide' suits_wide' chosen_fresh')
    have same : chosen = chosen' := List.inj_on_of_nodup_map distinct listed
      (order.mem_iff.mpr listed') (Prod.ext starts ends)
    rw [found, found', same]
  · have unmatched : ∀ certificate ∈ first, ∀ pattern,
        ¬ certificate.Suits hostname now pattern := fun certificate present pattern suits =>
      matched ⟨certificate, present, pattern, suits⟩
    rw [(best_eq_error_iff datable aligned).mpr unmatched,
      (best_eq_error_iff datable' aligned').mpr fun certificate present =>
        unmatched certificate (order.mem_iff.mpr present)]

theorem renewed_perm :
    renewed.Perm renewed.reverse ∧
      best renewed "shop.example.org" ⟨1772366400, 0⟩
        = best renewed.reverse "shop.example.org" ⟨1772366400, 0⟩ := by
  refine ⟨(List.reverse_perm _).symm, ?_⟩
  exact best_perm renewed renewed.reverse "shop.example.org" ⟨1772366400, 0⟩
    (List.reverse_perm _).symm (by decide +kernel) (datable_of_all (by decide +kernel))
    (aligned_of_ordinary (by decide +kernel)) fun _ =>
      ⟨renewed[1], List.getElem_mem _, "*.example.org", by decide +kernel, by decide +kernel⟩

def expiring : List Certificate :=
  [⟨"wide", ["*.example.org"], ⟨1700000000, 0⟩, ⟨1772600000, 0⟩⟩,
    ⟨"exact", ["shop.example.org"], ⟨1710000000, 0⟩, ⟨1772700000, 0⟩⟩]

/-- When all are in their last week, the first one stays, and the longer pattern does not win. -/
theorem expiring_order_matters :
    expiring.Perm expiring.reverse ∧
      (expiring.map fun certificate => (certificate.notBefore, certificate.notAfter)).Nodup ∧
      best expiring "shop.example.org" ⟨1772366400, 0⟩ = .ok (.ok expiring[0]) ∧
      best expiring.reverse "shop.example.org" ⟨1772366400, 0⟩ = .ok (.ok expiring[1]) ∧
      best expiring "shop.example.org" ⟨1772366400, 0⟩
        ≠ best expiring.reverse "shop.example.org" ⟨1772366400, 0⟩ :=
  ⟨(List.reverse_perm _).symm, by decide +kernel, by decide +kernel, by decide +kernel,
    by decide +kernel⟩

end IngressControl.Certificate
