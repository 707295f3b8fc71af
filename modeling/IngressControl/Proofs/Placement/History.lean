import Mathlib.Data.List.Nodup
import IngressControl.Proofs.Placement.Steps
/-!
What a placement shows of the endpoints dealt with so far.

Each of them is on one load balancer, under exactly its certificates, or left a problem; and no
load balancer shows anything else.
-/

namespace IngressControl.Placement

variable {policy : PlacementPolicy} {alarms : Option AlarmSet} {now : Instant}

def Apart (first second : Descriptor) : Prop :=
  ∀ endpoint other, first.Serves endpoint → second.Serves other → endpoint.id ≠ other.id

def Accommodates (resolved : ResolvedEndpoint) (descriptor : Descriptor) : Prop :=
  ∀ id, descriptor.Enters id resolved.endpoint ↔ resolved.certificates.contains id = true

def Known (earlier : List ResolvedEndpoint) (descriptor : Descriptor) : Prop :=
  ∀ endpoint, descriptor.Serves endpoint →
    ∃ resolved ∈ earlier, resolved.endpoint = endpoint ∧ Accommodates resolved descriptor

/-- The placement accounts for the endpoints dealt with so far. -/
structure Accounts (earlier : List ResolvedEndpoint) (placement : Placement) : Prop where
  known : ∀ descriptor ∈ placement.descriptors, Known earlier descriptor
  apart : placement.descriptors.Pairwise Apart
  settled : ∀ resolved ∈ earlier,
    (∃ descriptor ∈ placement.descriptors, Accommodates resolved descriptor) ∨
      ∃ failure, Problem.ofEndpoint resolved.endpoint.id.text failure ∈ placement.problems

def Unserved (id : EndpointId) (descriptors : List Descriptor) : Prop :=
  ∀ descriptor ∈ descriptors, ∀ endpoint, descriptor.Serves endpoint → endpoint.id ≠ id

theorem apart_add_right {first second : Descriptor} {endpoint : Endpoint}
    {certificates : KeySet CertificateId} (apart : Apart first second)
    (unserved : ∀ other, first.Serves other → other.id ≠ endpoint.id) :
    Apart first (second.add endpoint certificates) := by
  intro left right served served'
  rcases Descriptor.serves_add served' with old | rfl
  · exact apart left right served old
  · exact unserved left served

theorem apart_add_left {first second : Descriptor} {endpoint : Endpoint}
    {certificates : KeySet CertificateId} (apart : Apart first second)
    (unserved : ∀ other, second.Serves other → other.id ≠ endpoint.id) :
    Apart (first.add endpoint certificates) second := by
  intro left right served served'
  rcases Descriptor.serves_add served with old | rfl
  · exact apart left right old served'
  · exact (unserved right served').symm

theorem pairwise_replace {α : Type} {related : α → α → Prop} {before behind : List α}
    {target changed : α} (pairs : (before ++ target :: behind).Pairwise related)
    (left : ∀ first ∈ before, related first target → related first changed)
    (right : ∀ second ∈ behind, related target second → related changed second) :
    (before ++ changed :: behind).Pairwise related := by
  obtain ⟨front, rear, across⟩ := List.pairwise_append.mp pairs
  obtain ⟨above, rear⟩ := List.pairwise_cons.mp rear
  refine List.pairwise_append.mpr ⟨front, List.pairwise_cons.mpr ⟨?_, rear⟩, ?_⟩
  · exact fun second member => right second member (above second member)
  · intro first early second late
    rcases List.mem_cons.mp late with rfl | late
    · exact left first early (across first early target (.head _))
    · exact across first early second (.tail _ late)

theorem apart_replace {before behind : List Descriptor} {target : Descriptor} {endpoint : Endpoint}
    {certificates : KeySet CertificateId}
    (apart : (before ++ target :: behind).Pairwise Apart)
    (unserved : Unserved endpoint.id (before ++ target :: behind)) :
    (before ++ target.add endpoint certificates :: behind).Pairwise Apart := by
  refine pairwise_replace apart (fun first early separate => ?_) fun second late separate => ?_
  · exact apart_add_right separate (unserved first (by simp [early]))
  · exact apart_add_left separate (unserved second (by simp [late]))

theorem accommodates_add {descriptor : Descriptor} {resolved other : ResolvedEndpoint}
    (differs : other.endpoint.id ≠ resolved.endpoint.id)
    (accommodates : Accommodates other descriptor) :
    Accommodates other (descriptor.add resolved.endpoint resolved.certificates) := by
  intro id
  rw [Descriptor.enters_add, accommodates id]
  constructor
  · rintro (old | ⟨_, same⟩)
    · exact old
    · exact absurd (congrArg Endpoint.id same) differs
  · exact .inl

theorem accommodates_new {descriptor : Descriptor} {resolved : ResolvedEndpoint}
    (unserved : ∀ endpoint, descriptor.Serves endpoint → endpoint.id ≠ resolved.endpoint.id) :
    Accommodates resolved (descriptor.add resolved.endpoint resolved.certificates) := by
  intro id
  rw [Descriptor.enters_add]
  constructor
  · rintro (old | ⟨present, _⟩)
    · exact absurd rfl (unserved _ ⟨id, old⟩)
    · exact present
  · exact fun present => .inr ⟨present, rfl⟩

theorem known_of_unused {earlier : List ResolvedEndpoint} {descriptor : Descriptor}
    (unused : descriptor.certificates = {}) : Known earlier descriptor := by
  intro endpoint served
  exact absurd served (Descriptor.not_serves_of_unused unused endpoint)

theorem known_append {earlier : List ResolvedEndpoint} {descriptor : Descriptor}
    (known : Known earlier descriptor) (resolved : ResolvedEndpoint) :
    Known (earlier ++ [resolved]) descriptor := by
  intro endpoint served
  obtain ⟨prior, held, same, accommodates⟩ := known endpoint served
  exact ⟨prior, List.mem_append_left _ held, same, accommodates⟩

theorem unserved_of_known {earlier : List ResolvedEndpoint} {descriptor : Descriptor}
    {resolved : ResolvedEndpoint} (known : Known earlier descriptor)
    (new : ∀ prior ∈ earlier, prior.endpoint.id ≠ resolved.endpoint.id) :
    ∀ endpoint, descriptor.Serves endpoint → endpoint.id ≠ resolved.endpoint.id := by
  intro endpoint served
  obtain ⟨prior, held, rfl, _⟩ := known endpoint served
  exact new prior held

theorem known_add {earlier : List ResolvedEndpoint} {descriptor : Descriptor}
    {resolved : ResolvedEndpoint} (known : Known earlier descriptor)
    (new : ∀ prior ∈ earlier, prior.endpoint.id ≠ resolved.endpoint.id) :
    Known (earlier ++ [resolved]) (descriptor.add resolved.endpoint resolved.certificates) := by
  intro endpoint served
  rcases Descriptor.serves_add served with old | rfl
  · obtain ⟨prior, held, same, accommodates⟩ := known endpoint old
    exact ⟨prior, List.mem_append_left _ held, same,
      accommodates_add (new prior held) accommodates⟩
  · exact ⟨resolved, by simp, rfl, accommodates_new (unserved_of_known known new)⟩

theorem accounts_joined {earlier : List ResolvedEndpoint} {resolved : ResolvedEndpoint}
    {before behind : List Descriptor} {target : Descriptor} {problems : List Problem}
    (new : ∀ prior ∈ earlier, prior.endpoint.id ≠ resolved.endpoint.id)
    (unserved : Unserved resolved.endpoint.id (before ++ target :: behind))
    (accounts : Accounts earlier ⟨before ++ target :: behind, problems⟩) :
    Accounts (earlier ++ [resolved])
      ⟨before ++ target.add resolved.endpoint resolved.certificates :: behind, problems⟩ where
  known := by
    intro descriptor member
    rcases List.mem_append.mp member with early | late
    · exact known_append (accounts.known descriptor (by simp [early])) resolved
    · rcases List.mem_cons.mp late with rfl | late
      · exact known_add (accounts.known target (by simp)) new
      · exact known_append (accounts.known descriptor (by simp [late])) resolved
  apart := apart_replace accounts.apart unserved
  settled := by
    intro other member
    rcases List.mem_append.mp member with old | last
    · rcases accounts.settled other old with ⟨descriptor, present, accommodates⟩ | reported
      · left
        rcases List.mem_append.mp present with early | late
        · exact ⟨descriptor, by simp [early], accommodates⟩
        · rcases List.mem_cons.mp late with rfl | late
          -- Another identity joins here, which leaves the earlier entries as they are.
          · exact ⟨_, by simp, accommodates_add (new other old) accommodates⟩
          · exact ⟨descriptor, by simp [late], accommodates⟩
      · exact .inr reported
    · rw [List.mem_singleton.mp last]
      exact .inl ⟨_, by simp, accommodates_new (unserved target (by simp))⟩

theorem accounts_started {earlier : List ResolvedEndpoint} {resolved : ResolvedEndpoint}
    {placement : Placement} {started : Descriptor} (unused : started.certificates = {})
    (new : ∀ prior ∈ earlier, prior.endpoint.id ≠ resolved.endpoint.id)
    (unserved : Unserved resolved.endpoint.id placement.descriptors)
    (accounts : Accounts earlier placement) :
    Accounts (earlier ++ [resolved])
      { placement with
        descriptors := placement.descriptors
          ++ [started.add resolved.endpoint resolved.certificates] } where
  known := by
    intro descriptor member
    rcases List.mem_append.mp member with old | last
    · exact known_append (accounts.known descriptor old) resolved
    · rw [List.mem_singleton.mp last]
      exact known_add (known_of_unused unused) new
  apart := by
    refine List.pairwise_append.mpr ⟨accounts.apart, List.pairwise_singleton _ _, ?_⟩
    intro first old second last endpoint other served served'
    rw [List.mem_singleton.mp last] at served'
    rcases Descriptor.serves_add served' with before | rfl
    · exact absurd before (Descriptor.not_serves_of_unused unused other)
    · exact unserved first old endpoint served
  settled := by
    intro other member
    rcases List.mem_append.mp member with old | last
    · rcases accounts.settled other old with ⟨descriptor, present, accommodates⟩ | reported
      · exact .inl ⟨descriptor, List.mem_append_left _ present, accommodates⟩
      · exact .inr reported
    · rw [List.mem_singleton.mp last]
      refine .inl ⟨started.add resolved.endpoint resolved.certificates, by simp,
        accommodates_new fun endpoint served => ?_⟩
      exact absurd served (Descriptor.not_serves_of_unused unused endpoint)

theorem accounts_next {earlier : List ResolvedEndpoint} {resolved : ResolvedEndpoint}
    {placement : Placement}
    (new : ∀ prior ∈ earlier, prior.endpoint.id ≠ resolved.endpoint.id)
    (accounts : Accounts earlier placement) :
    Accounts (earlier ++ [resolved]) (next policy alarms now placement resolved) := by
  have unserved : Unserved resolved.endpoint.id placement.descriptors := by
    intro descriptor member
    exact unserved_of_known (accounts.known descriptor member) new
  rw [next]
  cases placed : place policy alarms now placement.descriptors resolved with
  | error failure =>
      refine ⟨?_, accounts.apart, ?_⟩
      · intro descriptor member
        exact known_append (accounts.known descriptor member) resolved
      · intro other member
        rcases List.mem_append.mp member with old | last
        · rcases accounts.settled other old with accommodated | ⟨failure', reported⟩
          · exact .inl accommodated
          · exact .inr ⟨failure', List.mem_append_left _ reported⟩
        · rw [List.mem_singleton.mp last]
          exact .inr ⟨failure, by simp⟩
  | ok after =>
      obtain ⟨_, ⟨before, target, behind, whole, _, rfl⟩ | ⟨_, rfl⟩⟩ := place_cases placed
      · obtain ⟨descriptors, problems⟩ := placement
        cases whole
        exact accounts_joined new unserved accounts
      · exact accounts_started (fresh_certificates ..) new unserved accounts

theorem serves_unique {endpoints : List ResolvedEndpoint} {placement : Placement}
    (distinct : (endpoints.map fun resolved => resolved.endpoint.id).Nodup)
    (accounts : Accounts endpoints placement) {descriptor : Descriptor}
    (placed : descriptor ∈ placement.descriptors) {first second : Endpoint}
    (served : descriptor.Serves first) (served' : descriptor.Serves second)
    (same : first.id = second.id) : first = second := by
  obtain ⟨resolved, member, rfl, _⟩ := accounts.known descriptor placed first served
  obtain ⟨resolved', member', rfl, _⟩ := accounts.known descriptor placed second served'
  rw [List.inj_on_of_nodup_map distinct member member' same]

theorem byIdentity_ids_nodup {endpoints : List ResolvedEndpoint}
    (distinct : (endpoints.map fun resolved => resolved.endpoint.id).Nodup) :
    ((byIdentity endpoints).map fun resolved => resolved.endpoint.id).Nodup := by
  refine (List.Perm.nodup_iff (List.Perm.map _ ?_)).mpr distinct
  exact List.mergeSort_perm ..

/-- With distinct identities, a placement accounts for all endpoints given to it. -/
theorem ofStacks_accounts {listed : List Stack} {endpoints : List ResolvedEndpoint}
    (distinct : (endpoints.map fun resolved => resolved.endpoint.id).Nodup) :
    Accounts (byIdentity endpoints) (ofStacks policy listed endpoints alarms now) := by
  have sorted := byIdentity_ids_nodup distinct
  apply placement_induction Accounts
  · refine ⟨?_, ?_, by simp⟩
    · intro descriptor seed
      obtain ⟨observed, _, rfl⟩ := mem_seeded.mp seed
      exact known_of_unused rfl
    · refine List.pairwise_map.mpr (List.pairwise_of_forall fun first second => ?_)
      intro endpoint _ served
      exact absurd served (Descriptor.not_serves_of_unused rfl endpoint)
  · intro earlier resolved placement below accounts
    refine accounts_next (fun prior member => ?_) accounts
    -- Distinctness of all identities, cut down to the endpoints up to this one.
    have once := (below.map fun resolved => resolved.endpoint.id).sublist.nodup sorted
    rw [List.map_append, List.nodup_append] at once
    exact once.2.2 _ (List.mem_map_of_mem member) _ (by simp)

end IngressControl.Placement
