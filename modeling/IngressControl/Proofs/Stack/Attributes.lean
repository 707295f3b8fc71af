import IngressControl.Proofs.Stack.ReadBack
/-!
The attributes of a load balancer in the tags of its stack.

What a descriptor writes is observed again on the stack, provided its identities can be read back
and its firewall is not called by the empty text. Scheduling a deletion changes nothing else that
is observed.
-/

namespace IngressControl

namespace Tags

theorem compatibility_congr {tags other : Tags}
    (same : ∀ key ∈ Tag.compatibility, tags.get? key = other.get? key) :
    tags.compatibility = other.compatibility := by
  simp only [Tag.compatibility, List.forall_mem_cons, List.not_mem_nil, false_implies, implies_true,
    and_true] at same
  obtain ⟨scheme, group, policy, type, family, http2, webAcl⟩ := same
  simp only [compatibility, scheme, group, policy, type, family, http2, webAcl]

theorem compatibility_setCompatibility (tags : Tags) {key : CompatibilityKey}
    (named : key.webAcl ≠ some "") : (tags.setCompatibility key).compatibility = .ok key := by
  have webAcl : (key.webAcl.filter fun value => !value.isEmpty) = key.webAcl := by
    cases stated : key.webAcl with
    | none => rfl
    | some value =>
        have filled : value ≠ "" := fun blank => named (by rw [stated, blank])
        simp [Option.filter, filled]
  have look (wanted : String) : (tags.setCompatibility key).get? wanted
      = if wanted = Tag.webAcl then key.webAcl
        else if wanted = Tag.http2 then some (Tag.flagText key.http2)
        else if wanted = Tag.addressFamily then some (Choice.name key.addressFamily)
        else if wanted = Tag.loadBalancerType then some (Choice.name key.loadBalancerType)
        else if wanted = Tag.sslPolicy then some key.sslPolicy
        else if wanted = Tag.securityGroup then some key.securityGroup
        else if wanted = Tag.scheme then some (Choice.name key.scheme)
        else tags.get? wanted := by
    by_cases last : wanted = Tag.webAcl
    · subst last
      rw [if_pos rfl]
      exact get?_put_self ..
    · rw [if_neg last, setCompatibility, get?_put_of_ne _ last]
      simp only [Table.get?_insert, Table.compare_eq_iff]
  simp [compatibility, look, webAcl, Tag.scheme, Tag.securityGroup, Tag.sslPolicy,
    Tag.loadBalancerType, Tag.addressFamily, Tag.http2, Tag.webAcl]
  rfl

end Tags

namespace Descriptor

structure Recordable (descriptor : Descriptor) : Prop where
  webAcl : descriptor.key.webAcl ≠ some ""
  owner : ∀ id, descriptor.owner = some id → id.Writable
  owned : descriptor.shared = false → descriptor.owner.isSome = true

theorem get?_tagsFor (descriptor : Descriptor) (cluster : String) (schedule : Schedule)
    {wanted : String} (other : Text.startsWith Tag.certificateStart wanted = false) :
    (descriptor.tagsFor cluster schedule).get? wanted
      = if wanted = Tag.alarmHash then descriptor.desiredAlarmHash
        else if wanted = Tag.owner then descriptor.owner.map EndpointId.text
        else if wanted = Tag.shared then some (Tag.flagText descriptor.shared)
        else (Tags.setCompatibility (Tags.ownedBy cluster) descriptor.key).get? wanted := by
  rw [tagsFor, Tags.setAlarmHash]
  by_cases alarm : wanted = Tag.alarmHash
  · rw [if_pos alarm, alarm, Tags.get?_put_self]
  · rw [if_neg alarm, Tags.get?_put_of_ne _ alarm, Tags.get?_setCertificates _ other, Tags.setOwner]
    by_cases owner : wanted = Tag.owner
    · rw [if_pos owner, owner, Tags.get?_put_self]
    · rw [if_neg owner, Tags.get?_put_of_ne _ owner, Tags.setShared, Table.get?_insert]
      simp only [Table.compare_eq_iff]

theorem compatibility_tagsFor (descriptor : Descriptor) (cluster : String) (schedule : Schedule)
    (named : descriptor.key.webAcl ≠ some "") :
    (descriptor.tagsFor cluster schedule).compatibility = .ok descriptor.key := by
  rw [← Tags.compatibility_setCompatibility (Tags.ownedBy cluster) named]
  apply Tags.compatibility_congr
  have plain : ∀ key ∈ Tag.compatibility, Text.startsWith Tag.certificateStart key = false ∧
      key ≠ Tag.alarmHash ∧ key ≠ Tag.owner ∧ key ≠ Tag.shared := by decide
  intro key member
  obtain ⟨other, alarm, owner, shared⟩ := plain key member
  rw [get?_tagsFor _ _ _ other, if_neg alarm, if_neg owner, if_neg shared]

theorem shared_tagsFor (descriptor : Descriptor) (cluster : String) (schedule : Schedule) :
    (descriptor.tagsFor cluster schedule).shared = .ok descriptor.shared := by
  rw [Tags.shared, get?_tagsFor _ _ _ (by decide), if_neg (by decide), if_neg (by decide),
    if_pos rfl]
  exact Tag.readFlag_flagText ..

theorem owner_tagsFor {descriptor : Descriptor} (cluster : String) (schedule : Schedule)
    (writable : ∀ id, descriptor.owner = some id → id.Writable) :
    (descriptor.tagsFor cluster schedule).owner = .ok descriptor.owner := by
  rw [Tags.owner, get?_tagsFor _ _ _ (by decide), if_neg (by decide), if_pos rfl]
  cases owner : descriptor.owner with
  | none => rfl
  | some id => simp only [Option.map_some, EndpointId.ofText_text (writable id owner)]

theorem certificates_tagsFor (descriptor : Descriptor) (cluster : String) {schedule : Schedule}
    (plain : schedule.Plain) :
    (descriptor.tagsFor cluster schedule).certificates = .ok (Tags.recalled schedule) := by
  rw [tagsFor, Tags.setAlarmHash, Tags.certificates_put _ _ (by decide)]
  exact Tags.certificates_setCertificates _ plain

theorem deletion_tagsFor (descriptor : Descriptor) (cluster : String) (schedule : Schedule) :
    (descriptor.tagsFor cluster schedule).deletionScheduledAt = .ok none := by
  rw [Tags.deletionScheduledAt, tagsFor_unscheduled]

theorem alarmHash_tagsFor (descriptor : Descriptor) (cluster : String) (schedule : Schedule) :
    Tags.alarmHash? (descriptor.tagsFor cluster schedule) = descriptor.desiredAlarmHash := by
  rw [Tags.alarmHash?, get?_tagsFor _ _ _ (by decide), if_pos rfl]

def shown (descriptor : Descriptor) (schedule : Schedule) (stack : Stack) : ObservedStack where
  stack
  key := descriptor.key
  shared := descriptor.shared
  owner := descriptor.owner
  certificates := Tags.recalled schedule
  deletionScheduledAt := none

theorem shown_reflects {descriptor : Descriptor} {cluster : String} {schedule : Schedule}
    {stack : Stack} (recordable : descriptor.Recordable) (plain : schedule.Plain)
    (tagged : stack.tags = descriptor.tagsFor cluster schedule) :
    (descriptor.shown schedule stack).Reflects stack where
  stack_eq := rfl
  key := tagged ▸ compatibility_tagsFor _ _ _ recordable.webAcl
  shared := tagged ▸ shared_tagsFor ..
  owner := tagged ▸ owner_tagsFor _ _ recordable.owner
  owned := recordable.owned
  certificates := tagged ▸ certificates_tagsFor _ _ plain
  deletion := tagged ▸ deletion_tagsFor ..

end Descriptor

namespace Stack

def IsOf (stack : Stack) (cluster : String) : Prop :=
  stack.tags.contains Tag.application = true ∧ Tags.clusterId? stack.tags = some cluster

theorem isOf_of_tagsFor {stack : Stack} {descriptor : Descriptor} {cluster : String}
    {schedule : Schedule} (tagged : stack.tags = descriptor.tagsFor cluster schedule) :
    stack.IsOf cluster := by
  have look {key : String} (member : key ∈ [Tag.application, Tag.clusterId]) :
      stack.tags.get? key = (Tags.ownedBy cluster).get? key := by
    have plain : ∀ key ∈ [Tag.application, Tag.clusterId],
        Text.startsWith Tag.certificateStart key = false ∧ key ≠ Tag.alarmHash ∧
          key ≠ Tag.owner ∧ key ≠ Tag.shared ∧ key ∉ Tag.compatibility := by decide
    obtain ⟨other, alarm, owner, shared, foreign⟩ := plain key member
    rw [tagged, Descriptor.get?_tagsFor _ _ _ other, if_neg alarm, if_neg owner, if_neg shared,
      Tags.get?_setCompatibility _ _ foreign]
  refine ⟨?_, ?_⟩
  · rw [Table.contains, look (by simp), Tags.ownedBy, Table.get?_insert_of_ne _ (by decide),
      Table.get?_insert_self]
    rfl
  · rw [Tags.clusterId?, look (by simp), Tags.ownedBy, Table.get?_insert_self]

end Stack

namespace ObservedStack

theorem writable_of_reflects {observed : ObservedStack} {stack : Stack}
    (reflects : observed.Reflects stack) {id : EndpointId} (owner : observed.owner = some id) :
    id.Writable := by
  have read := reflects.owner
  rw [owner, Tags.owner] at read
  split at read
  · cases read
  · split at read
    · rename_i parsed
      cases read
      exact EndpointId.writable_of_ofText parsed
    · cases read

theorem follows_of_read {α : Type} {value : Option String} {absent : Except Failure α}
    {present : String → Except Failure α} {rest : α → Except Failure CompatibilityKey}
    {key : CompatibilityKey} (read : (match value with
      | none => absent >>= rest
      | some text => present text >>= rest) = .ok key) : ∃ item, rest item = .ok key := by
  cases value with
  | none => exact (Attempt.bind_eq_ok_iff.mp read).imp fun _ found => found.2
  | some text => exact (Attempt.bind_eq_ok_iff.mp read).imp fun _ found => found.2

theorem webAcl_of_reflects {observed : ObservedStack} {stack : Stack}
    (reflects : observed.Reflects stack) : observed.key.webAcl ≠ some "" := by
  obtain ⟨scheme, read⟩ := follows_of_read reflects.key
  obtain ⟨type, read⟩ := follows_of_read read
  obtain ⟨family, read⟩ := follows_of_read read
  obtain ⟨http2, read⟩ := follows_of_read read
  rw [← Except.ok.inj read]
  intro blank
  obtain ⟨_, filled⟩ := Option.filter_eq_some_iff.mp blank
  simp at filled

theorem recordable_of_reflects {observed : ObservedStack} {stack : Stack}
    (reflects : observed.Reflects stack) (alarms : Option AlarmSet) :
    (Descriptor.ofObserved observed alarms).Recordable :=
  ⟨webAcl_of_reflects reflects, fun _ => writable_of_reflects reflects, reflects.owned⟩

end ObservedStack

namespace Stack

def schedule (stack : Stack) (moment : Instant) : Stack :=
  { stack with tags := Tags.setDeletionScheduledAt stack.tags (some moment) }

variable {stack : Stack} {moment : Instant}

theorem get?_schedule {key : String} (other : key ≠ Tag.deletionScheduled) :
    (stack.schedule moment).tags.get? key = stack.tags.get? key :=
  Tags.get?_put_of_ne _ other

theorem isOf_schedule {cluster : String} :
    (stack.schedule moment).IsOf cluster ↔ stack.IsOf cluster := by
  rw [IsOf, IsOf, Table.contains, Tags.clusterId?, get?_schedule (by decide),
    get?_schedule (by decide)]
  rfl

/-- Stacks whose tags agree but for the deletion time are observed alike but for that. -/
theorem reflects_of_resembles {other : Stack} {observed : ObservedStack} {due : Option Instant}
    (reflects : observed.Reflects stack)
    (same : ∀ key, key ≠ Tag.deletionScheduled → other.tags.get? key = stack.tags.get? key)
    (deletion : other.tags.deletionScheduledAt = .ok due) :
    ObservedStack.Reflects { observed with stack := other, deletionScheduledAt := due } other where
  stack_eq := rfl
  key := by
    have apart : ∀ key ∈ Tag.compatibility, key ≠ Tag.deletionScheduled := by decide
    rw [Tags.compatibility_congr fun key member => same key (apart key member)]
    exact reflects.key
  shared := by
    rw [Tags.shared, same _ (by decide)]
    exact reflects.shared
  owner := by
    rw [Tags.owner, same _ (by decide)]
    exact reflects.owner
  owned := reflects.owned
  certificates := by
    have apart : Text.startsWith Tag.certificateStart Tag.deletionScheduled = false := by decide
    rw [Tags.certificates_congr fun key own => same key fun equal => ?_]
    · exact reflects.certificates
    · rw [equal, apart] at own
      cases own
  deletion := deletion

theorem reflects_schedule {observed : ObservedStack} (reflects : observed.Reflects stack)
    (plain : moment.HasPlainYear) :
    ObservedStack.Reflects { observed with
      stack := stack.schedule moment
      deletionScheduledAt := some moment.stamped } (stack.schedule moment) := by
  refine reflects_of_resembles reflects (fun key other => get?_schedule other) ?_
  rw [Tags.deletionScheduledAt, schedule, Tags.setDeletionScheduledAt, Tags.get?_put_self]
  simp only [Option.map_some, Tag.readTime, Stamp.strict_secondText plain]
  rfl

end Stack

end IngressControl
