import IngressControl.Pass.Resolution
import IngressControl.Proofs.Certificate.Selection
import IngressControl.Proofs.Table
/-!
What the resolution of endpoints hands on and what it reports.

Every endpoint dealt with is handed on with the certificates found for it, or has a problem of its
own; and each hostname without a certificate has one.
-/

namespace IngressControl

variable {snapshot : List Certificate} {localDomain : String} {now : Instant}

def Certificate.Chosen (snapshot : List Certificate) (now : Instant) (hostname : String)
    (id : CertificateId) : Prop :=
  ∃ certificate, Certificate.best snapshot hostname now = .ok (.ok certificate) ∧
    certificate.id = id

def Certificate.isMissing (snapshot : List Certificate) (now : Instant) (hostname : String) :
    Bool :=
  match Certificate.best snapshot hostname now with
  | .ok (.error _) => true
  | _ => false

/-- The certificates that an endpoint is to be served under: its own, or else those chosen for its
hostnames outside the cluster's domain. -/
def Endpoint.Wants (snapshot : List Certificate) (localDomain : String) (now : Instant)
    (endpoint : Endpoint) (id : CertificateId) : Prop :=
  endpoint.certificateId = some id ∨ (endpoint.certificateId = none ∧
    ∃ hostname ∈ endpoint.certificateHostnames localDomain,
      Certificate.Chosen snapshot now hostname id)

/-- A problem for each hostname of an endpoint that needs a certificate and has none. -/
def Endpoint.misses (snapshot : List Certificate) (localDomain : String) (now : Instant)
    (endpoint : Endpoint) : List Problem :=
  if endpoint.certificateId.isSome then []
  else
    ((endpoint.certificateHostnames localDomain).filter (Certificate.isMissing snapshot now)).map
      fun hostname => Problem.ofEndpoint endpoint.id.text (.noMatchingCertificate hostname)

namespace Findings

theorem ofHostnames_spec {findings result : Findings} {hostnames : List String}
    (found : ofHostnames snapshot now findings hostnames = .ok result) :
    (∀ id, result.certificates.contains id = true ↔ findings.certificates.contains id = true ∨
      ∃ hostname ∈ hostnames, Certificate.Chosen snapshot now hostname id) ∧
    result.misses = findings.misses
      ++ (hostnames.filter (Certificate.isMissing snapshot now)).map fun hostname =>
        ⟨hostname, .noMatchingCertificate hostname⟩ := by
  induction hostnames generalizing findings with
  | nil =>
      cases found
      simp
  | cons hostname rest ih =>
      rw [ofHostnames, Attempt.bind_eq_ok_iff] at found
      obtain ⟨choice, chosen, found⟩ := found
      cases choice with
      | ok certificate =>
          obtain ⟨certificates, misses⟩ := ih found
          refine ⟨fun id => ?_, ?_⟩
          · have here : Certificate.Chosen snapshot now hostname id ↔ id = certificate.id := by
              simp [Certificate.Chosen, chosen, eq_comm]
            simp only [certificates, KeySet.contains_add, List.mem_cons, or_and_right, exists_or,
              exists_eq_left, here, or_left_comm, or_assoc]
          · rw [misses]
            simp [Certificate.isMissing, chosen]
      | error failure =>
          obtain ⟨certificates, misses⟩ := ih found
          refine ⟨fun id => ?_, ?_⟩
          · have here : ¬ Certificate.Chosen snapshot now hostname id := by
              simp [Certificate.Chosen, chosen]
            simp only [certificates, List.mem_cons, or_and_right, exists_or, exists_eq_left, here,
              false_or]
          · rw [misses, Certificate.best_eq_error chosen]
            simp [Certificate.isMissing, chosen]

theorem contains_ofEndpoint {endpoint : Endpoint} {findings : Findings}
    (found : ofEndpoint snapshot localDomain now endpoint = .ok findings) (id : CertificateId) :
    findings.certificates.contains id = true ↔ endpoint.Wants snapshot localDomain now id := by
  rw [ofEndpoint] at found
  rw [Endpoint.Wants]
  cases own : endpoint.certificateId with
  | some certificate =>
      simp only [own, Except.ok.injEq] at found
      subst found
      rw [KeySet.contains_ofList, List.mem_singleton, eq_comm]
      simp
  | none =>
      simp only [own] at found
      rw [(ofHostnames_spec found).1]
      simp [Table.contains]

theorem misses_ofEndpoint {endpoint : Endpoint} {findings : Findings}
    (found : ofEndpoint snapshot localDomain now endpoint = .ok findings) :
    (findings.misses.map fun miss => Problem.ofEndpoint endpoint.id.text miss.failure)
      = endpoint.misses snapshot localDomain now := by
  rw [ofEndpoint] at found
  rw [Endpoint.misses]
  cases own : endpoint.certificateId with
  | some certificate =>
      simp only [own, Except.ok.injEq] at found
      subst found
      simp
  | none =>
      simp only [own] at found
      rw [(ofHostnames_spec found).2]
      simp [Function.comp_def]

theorem problems_of_isEmpty {findings : Findings} (none_found : findings.certificates.isEmpty = true)
    (id : EndpointId) : ∃ failure, Problem.ofEndpoint id.text failure ∈ findings.problems id := by
  cases missed : findings.misses with
  | nil => simp [problems, none_found, missed]
  | cons miss rest => exact ⟨miss.failure, by simp [problems, missed]⟩

theorem misses_sublist_problems (findings : Findings) (id : EndpointId) :
    (findings.misses.map fun miss => Problem.ofEndpoint id.text miss.failure).Sublist
      (findings.problems id) := by
  rw [problems]
  split
  · rename_i barren
    simp only [Bool.and_eq_true, List.isEmpty_iff] at barren
    simp [barren.2]
  · exact .refl _

end Findings

namespace Resolution

structure Covers (snapshot : List Certificate) (localDomain : String) (now : Instant)
    (earlier : List Endpoint) (resolution : Resolution) : Prop where
  handed : (resolution.resolved.map ResolvedEndpoint.endpoint).Sublist earlier
  certified : ∀ resolved ∈ resolution.resolved, ∀ id, resolved.certificates.contains id = true ↔
    resolved.endpoint.Wants snapshot localDomain now id
  furnished : ∀ resolved ∈ resolution.resolved, resolved.certificates.isEmpty = false
  settled : ∀ endpoint ∈ earlier, (∃ resolved ∈ resolution.resolved, resolved.endpoint = endpoint) ∨
    ∃ failure, Problem.ofEndpoint endpoint.id.text failure ∈ resolution.problems
  missed : (earlier.flatMap (Endpoint.misses snapshot localDomain now)).Sublist resolution.problems

theorem covers_add {earlier : List Endpoint} {resolution : Resolution} {endpoint : Endpoint}
    {findings : Findings}
    (found : Findings.ofEndpoint snapshot localDomain now endpoint = .ok findings)
    (covers : Covers snapshot localDomain now earlier resolution) :
    Covers snapshot localDomain now (earlier ++ [endpoint]) (resolution.add endpoint findings) where
  handed := by
    rw [add]
    split
    · exact covers.handed.trans (List.sublist_append_left _ _)
    · rw [List.map_append]
      exact covers.handed.append (.refl _)
  certified := by
    intro resolved member
    rw [add] at member
    split at member
    · exact covers.certified resolved member
    · rcases List.mem_append.mp member with old | new
      · exact covers.certified resolved old
      · rw [List.mem_singleton.mp new]
        exact Findings.contains_ofEndpoint found
  furnished := by
    intro resolved member
    rw [add] at member
    split at member
    · exact covers.furnished resolved member
    · rename_i filled
      rcases List.mem_append.mp member with old | new
      · exact covers.furnished resolved old
      · rw [List.mem_singleton.mp new]
        exact Bool.eq_false_iff.mpr filled
  settled := by
    intro other member
    rcases List.mem_append.mp member with old | new
    · rcases covers.settled other old with ⟨resolved, present, same⟩ | ⟨failure, reported⟩
      · refine .inl ⟨resolved, ?_, same⟩
        rw [add]
        split
        · exact present
        · exact List.mem_append_left _ present
      · exact .inr ⟨failure, List.mem_append_left _ reported⟩
    · rw [List.mem_singleton.mp new, add]
      -- An endpoint is left out only without any certificate, and then there is a problem to tell.
      by_cases barren : findings.certificates.isEmpty = true
      · obtain ⟨failure, reported⟩ := Findings.problems_of_isEmpty barren endpoint.id
        exact .inr ⟨failure, List.mem_append_right _ reported⟩
      · exact .inl ⟨⟨endpoint, findings.certificates⟩, by simp [barren], rfl⟩
  missed := by
    rw [List.flatMap_append, List.flatMap_singleton, ← Findings.misses_ofEndpoint found]
    exact covers.missed.append (Findings.misses_sublist_problems findings endpoint.id)

theorem ofEndpoints_covers_from {earlier endpoints : List Endpoint} {resolution result : Resolution}
    (covers : Covers snapshot localDomain now earlier resolution)
    (resolved : ofEndpoints snapshot localDomain now resolution endpoints = .ok result) :
    Covers snapshot localDomain now (earlier ++ endpoints) result := by
  induction endpoints generalizing earlier resolution with
  | nil =>
      cases resolved
      rwa [List.append_nil]
  | cons endpoint rest ih =>
      rw [ofEndpoints, Attempt.bind_eq_ok_iff] at resolved
      obtain ⟨findings, found, resolved⟩ := resolved
      rw [List.append_cons]
      exact ih (covers_add found covers) resolved

theorem ofEndpoints_covers {endpoints : List Endpoint} {resolution : Resolution}
    (resolved : ofEndpoints snapshot localDomain now {} endpoints = .ok resolution) :
    Covers snapshot localDomain now endpoints resolution := by
  have start : Covers snapshot localDomain now [] {} :=
    ⟨.slnil, by simp, by simp, by simp, .slnil⟩
  exact ofEndpoints_covers_from start resolved

theorem ofEndpoints_hands {endpoints : List Endpoint} {resolution result : Resolution}
    (resolved : ofEndpoints snapshot localDomain now resolution endpoints = .ok result) :
    (∀ handed ∈ resolution.resolved, handed ∈ result.resolved) ∧
    ∀ endpoint ∈ endpoints, ∀ findings,
      Findings.ofEndpoint snapshot localDomain now endpoint = .ok findings →
        findings.certificates.isEmpty = false →
          ⟨endpoint, findings.certificates⟩ ∈ result.resolved := by
  induction endpoints generalizing resolution with
  | nil =>
      cases resolved
      exact ⟨fun _ => id, fun _ member => nomatch member⟩
  | cons first rest ih =>
      rw [ofEndpoints, Attempt.bind_eq_ok_iff] at resolved
      obtain ⟨findings, found, resolved⟩ := resolved
      obtain ⟨kept, hands⟩ := ih resolved
      refine ⟨fun handed member => kept handed ?_, fun endpoint member => ?_⟩
      · rw [add]
        split
        · exact member
        · exact List.mem_append_left _ member
      · rcases List.mem_cons.mp member with rfl | later
        · intro findings' found' furnished
          obtain rfl := Except.ok.inj (found.symm.trans found')
          exact kept _ (by simp [add, furnished])
        · exact hands endpoint later

end Resolution

section Endings

variable (datable : ∀ certificate ∈ snapshot, certificate.Datable)

include datable

theorem Findings.ofHostnames_ok (findings : Findings) (hostnames : List String) :
    ∃ result, ofHostnames snapshot now findings hostnames = .ok result := by
  induction hostnames generalizing findings with
  | nil => exact ⟨findings, rfl⟩
  | cons hostname rest ih =>
      obtain ⟨choice, chosen⟩ := Certificate.best_ok hostname now datable
      rw [ofHostnames, chosen]
      cases choice with
      | ok certificate => exact ih _
      | error failure => exact ih _

theorem Findings.ofEndpoint_ok (endpoint : Endpoint) :
    ∃ findings, ofEndpoint snapshot localDomain now endpoint = .ok findings := by
  rw [ofEndpoint]
  cases endpoint.certificateId with
  | some id => exact ⟨_, rfl⟩
  | none => exact ofHostnames_ok datable {} _

theorem Resolution.ofEndpoints_ok (resolution : Resolution) (endpoints : List Endpoint) :
    ∃ result, ofEndpoints snapshot localDomain now resolution endpoints = .ok result := by
  induction endpoints generalizing resolution with
  | nil => exact ⟨resolution, rfl⟩
  | cons endpoint rest ih =>
      obtain ⟨findings, found⟩ := Findings.ofEndpoint_ok datable endpoint
      rw [ofEndpoints, found]
      exact ih _

end Endings

end IngressControl
