import IngressControl.Proofs.Certificate.Ranking
/-!
The candidate that the search for a certificate holds.

Once a covering pattern of a certificate that is not in its last week has been met, the candidate is
the first of the highest ranked of these. Each step keeps that, and so does the whole search.
-/

namespace IngressControl.Certificate

variable {now : Instant} {certificates : List Certificate} {hostname : String}

def Suits (hostname : String) (now : Instant) (certificate : Certificate) (pattern : String) :
    Prop :=
  certificate.isValidAt now = true ∧ pattern ∈ certificate.domainNames ∧
    covers pattern hostname = true

instance (hostname : String) (now : Instant) (certificate : Certificate) (pattern : String) :
    Decidable (certificate.Suits hostname now pattern) :=
  inferInstanceAs (Decidable (_ ∧ _ ∧ _))

theorem mem_matching {certificate : Certificate} {pattern : String} :
    (certificate, pattern) ∈ matching certificates hostname now ↔
      certificate ∈ certificates ∧ certificate.Suits hostname now pattern := by
  simp only [matching, Suits, List.mem_flatMap, List.mem_filter, List.mem_map, Prod.mk.injEq]
  constructor
  · rintro ⟨_, ⟨present, valid⟩, _, ⟨listed, covering⟩, rfl, rfl⟩
    exact ⟨present, valid, listed, covering⟩
  · rintro ⟨present, valid, listed, covering⟩
    exact ⟨certificate, ⟨present, valid⟩, pattern, ⟨listed, covering⟩, rfl, rfl⟩

def Candidate.ofRow (row : Certificate × String) : Candidate := ⟨row.1, row.2.utf8ByteSize⟩

def IsTop (now : Instant) (rows : List (Certificate × String)) (row : Certificate × String) :
    Prop :=
  ∃ before behind, rows = before ++ row :: behind ∧ Fresh now row.1 ∧
    (∀ other ∈ before, Fresh now other.1 → (Candidate.ofRow row).Outranks (.ofRow other)) ∧
    ∀ other ∈ behind, Fresh now other.1 → ¬ (Candidate.ofRow other).Outranks (.ofRow row)

theorem isTop_append {rows : List (Certificate × String)} {row other : Certificate × String}
    (top : IsTop now rows row)
    (below : Fresh now other.1 → ¬ (Candidate.ofRow other).Outranks (.ofRow row)) :
    IsTop now (rows ++ [other]) row := by
  obtain ⟨before, behind, rfl, lasting, above, level⟩ := top
  refine ⟨before, behind ++ [other], by simp, lasting, above, ?_⟩
  intro late member
  rcases List.mem_append.mp member with old | last
  · exact level late old
  · rw [List.mem_singleton.mp last]
    exact below

theorem isTop_last {rows : List (Certificate × String)} {row : Certificate × String}
    (lasting : Fresh now row.1)
    (above : ∀ other ∈ rows, Fresh now other.1 → (Candidate.ofRow row).Outranks (.ofRow other)) :
    IsTop now (rows ++ [row]) row :=
  ⟨rows, [], rfl, lasting, above, nofun⟩

theorem outranks_of_top {rows : List (Certificate × String)} {row other : Certificate × String}
    (top : IsTop now rows row) (higher : (Candidate.ofRow other).Outranks (.ofRow row)) :
    ∀ early ∈ rows, Fresh now early.1 → (Candidate.ofRow other).Outranks (.ofRow early) := by
  obtain ⟨before, behind, rfl, _, above, level⟩ := top
  intro early member lasting
  apply Candidate.outranks_of_not_outranks higher
  rcases List.mem_append.mp member with front | rear
  · exact Candidate.outranks_asymm (above early front lasting)
  · rcases List.mem_cons.mp rear with rfl | late
    · exact Candidate.not_outranks_self _
    · exact level early late lasting

/-- What the candidate of a search is, after the rows seen so far. -/
structure Leads (now : Instant) (seen : List (Certificate × String)) (leader : Option Candidate) :
    Prop where
  absent : leader = none → seen = []
  present : ∀ candidate ∈ leader, ∃ row ∈ seen, Candidate.ofRow row = candidate
  best : (∃ row ∈ seen, Fresh now row.1) →
    ∃ row, leader = some (.ofRow row) ∧ IsTop now seen row

/-- The rows come from certificates that enter their last week in the order in which they end. -/
structure Ordered (certificates : List Certificate) (rows : List (Certificate × String)) : Prop where
  listed : ∀ row ∈ rows, row.1 ∈ certificates
  datable : ∀ certificate ∈ certificates, certificate.Datable
  aligned : Aligned certificates

section Search

variable {seen : List (Certificate × String)} {row : Certificate × String} {candidate : Candidate}

theorem leads_replaced (ordered : Ordered certificates (seen ++ [row]))
    (leads : Leads now seen (some candidate))
    (decided : replaces candidate row.1 row.2.utf8ByteSize now = .ok true) :
    Leads now (seen ++ [row]) (some (.ofRow row)) := by
  have here : row.1 ∈ certificates := ordered.listed row (by simp)
  refine ⟨nofun, fun _ same => ⟨row, by simp, Option.some.inj same⟩, fun existing => ?_⟩
  rcases fresh_or_near now (ordered.datable _ here) with lasting | expiring
  · refine ⟨row, rfl, isTop_last lasting ?_⟩
    by_cases earlier : ∃ other ∈ seen, Fresh now other.1
    · obtain ⟨top, same, isTop⟩ := leads.best earlier
      cases same
      have top_lasting : Fresh now top.1 := isTop.choose_spec.choose_spec.2.1
      obtain ⟨wins, decided', iff⟩ :=
        replaces_of_fresh (.ofRow top) row.2.utf8ByteSize top_lasting lasting
      rw [decided] at decided'
      cases decided'
      exact outranks_of_top isTop (iff.mp rfl)
    · intro other member fresh
      exact absurd ⟨other, member, fresh⟩ earlier
  -- A certificate in its last week takes the place of none that is not, so none came before.
  · obtain ⟨other, member, fresh⟩ := existing
    rcases List.mem_append.mp member with old | last
    · obtain ⟨top, same, isTop⟩ := leads.best ⟨other, old, fresh⟩
      cases same
      obtain ⟨before, behind, whole, top_lasting, _⟩ := isTop
      have top_listed : top.1 ∈ certificates := ordered.listed top (by simp [whole])
      have first := near_ends_first ordered.aligned here top_listed (ordered.datable _ here)
        (ordered.datable _ top_listed) expiring top_lasting
      rw [replaces_of_near (.ofRow top) _ top_lasting expiring first] at decided
      cases decided
    · rw [List.mem_singleton.mp last, Fresh, expiring] at fresh
      cases fresh

theorem leads_kept (ordered : Ordered certificates (seen ++ [row]))
    (leads : Leads now seen (some candidate))
    (decided : replaces candidate row.1 row.2.utf8ByteSize now = .ok false) :
    Leads now (seen ++ [row]) (some candidate) := by
  have here : row.1 ∈ certificates := ordered.listed row (by simp)
  refine ⟨nofun, ?_, fun existing => ?_⟩
  · intro other same
    obtain ⟨source, member, equal⟩ := leads.present other same
    exact ⟨source, List.mem_append_left _ member, equal⟩
  by_cases earlier : ∃ other ∈ seen, Fresh now other.1
  · obtain ⟨top, same, isTop⟩ := leads.best earlier
    cases same
    refine ⟨top, rfl, isTop_append isTop fun lasting higher => ?_⟩
    have top_lasting : Fresh now top.1 := isTop.choose_spec.choose_spec.2.1
    obtain ⟨wins, decided', iff⟩ :=
      replaces_of_fresh (.ofRow top) row.2.utf8ByteSize top_lasting lasting
    rw [decided] at decided'
    cases decided'
    cases iff.mpr higher
  -- The first certificate in front of its last week would have taken the candidate's place.
  · obtain ⟨other, member, fresh⟩ := existing
    rcases List.mem_append.mp member with old | last
    · exact absurd ⟨other, old, fresh⟩ earlier
    · rw [List.mem_singleton.mp last] at fresh
      obtain ⟨source, origin, same⟩ := leads.present candidate rfl
      have source_listed : source.1 ∈ certificates :=
        ordered.listed source (List.mem_append_left _ origin)
      rcases fresh_or_near now (ordered.datable _ source_listed) with lasting | expiring
      · exact absurd ⟨source, origin, lasting⟩ earlier
      · have first := near_ends_first ordered.aligned source_listed here
          (ordered.datable _ source_listed) (ordered.datable _ here) expiring fresh
        rw [← same, replaces_near (.ofRow source) _ expiring fresh first] at decided
        cases decided

theorem leads_next {found next : Option Candidate} (ordered : Ordered certificates (seen ++ [row]))
    (leads : Leads now seen found)
    (decided : better found row.1 row.2.utf8ByteSize now = .ok next) :
    Leads now (seen ++ [row]) next := by
  cases found with
  | none =>
      cases decided
      rw [leads.absent rfl]
      refine ⟨nofun, fun _ same => ⟨row, by simp, Option.some.inj same⟩, ?_⟩
      rintro ⟨other, member, fresh⟩
      rw [List.nil_append, List.mem_singleton] at member
      rw [member] at fresh
      exact ⟨row, rfl, isTop_last fresh nofun⟩
  | some candidate =>
      obtain ⟨wins, replaced, same⟩ := Attempt.bind_eq_ok_iff.mp decided
      cases wins with
      | true =>
          cases same
          exact leads_replaced ordered leads replaced
      | false =>
          cases same
          exact leads_kept ordered leads replaced

theorem compete_leads {rows : List (Certificate × String)} {found winner : Option Candidate}
    (ordered : Ordered certificates (seen ++ rows)) (leads : Leads now seen found)
    (competed : compete now found rows = .ok winner) : Leads now (seen ++ rows) winner := by
  induction rows generalizing seen found with
  | nil =>
      cases competed
      rwa [List.append_nil]
  | cons row rest ih =>
      obtain ⟨certificate, pattern⟩ := row
      obtain ⟨next, decided, competed⟩ := Attempt.bind_eq_ok_iff.mp competed
      rw [List.append_cons] at ordered ⊢
      have listed : Ordered certificates (seen ++ [(certificate, pattern)]) :=
        ⟨fun row member => ordered.listed row (List.mem_append_left _ member), ordered.datable,
          ordered.aligned⟩
      exact ih ordered (leads_next listed leads decided) competed

end Search

theorem best_leads (hostname : String) (now : Instant)
    (datable : ∀ certificate ∈ certificates, certificate.Datable)
    (aligned : Aligned certificates) :
    ∃ winner, Leads now (matching certificates hostname now) winner ∧
      best certificates hostname now = .ok (match winner with
        | none => .error (.noMatchingCertificate hostname)
        | some candidate => .ok candidate.certificate) := by
  have listed : ∀ row ∈ matching certificates hostname now, row.1 ∈ certificates :=
    fun _ member => (mem_matching.mp member).1
  have unstarted : ∀ candidate ∈ (none : Option Candidate), candidate.certificate.Datable := nofun
  obtain ⟨winner, competed⟩ := compete_ok now unstarted
    fun row member => datable _ (listed row member)
  have start : Leads now [] none := ⟨fun _ => rfl, nofun, nofun⟩
  have led : Leads now ([] ++ matching certificates hostname now) winner :=
    compete_leads ⟨listed, datable, aligned⟩ start competed
  refine ⟨winner, led, ?_⟩
  rw [best, best?, competed]
  cases winner <;> rfl

end IngressControl.Certificate
