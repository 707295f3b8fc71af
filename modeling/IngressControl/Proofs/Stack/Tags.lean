import IngressControl.Descriptor.Basic
import IngressControl.Proofs.Attempt
import IngressControl.Proofs.Table
/-!
What the tags of stacks say after they are written and read.

A request never schedules a deletion in its tags, so an update takes a schedule back. Reading the
certificate tags gives every one of them its removal time, whatever the others are.
-/

namespace IngressControl

def Tag.compatibility : List String :=
  [scheme, securityGroup, sslPolicy, loadBalancerType, addressFamily, http2, webAcl]

theorem Tag.readTime_eq_ok {key value : String} {moment : Instant}
    (read : Tag.readTime key value = .ok moment) : Stamp.strict value = .ok moment := by
  rw [Tag.readTime] at read
  cases outcome : Stamp.strict value with
  | ok other =>
      rw [outcome] at read
      cases read
      rfl
  | error fault =>
      rw [outcome] at read
      cases read

namespace Tags

theorem get?_put_of_ne {tags : Tags} {key wanted : String} (value : Option String)
    (differs : wanted ≠ key) : (tags.put key value).get? wanted = tags.get? wanted := by
  cases value with
  | none => exact Table.get?_erase_of_ne differs
  | some text => exact Table.get?_insert_of_ne text differs

theorem get?_addCertificates {tags : Tags} {wanted : String}
    (rows : List (CertificateId × Option Instant))
    (other : Text.startsWith Tag.certificateStart wanted = false) :
    (tags.addCertificates rows).get? wanted = tags.get? wanted := by
  induction rows generalizing tags with
  | nil => rfl
  | cons row rest ih =>
      obtain ⟨id, removal⟩ := row
      have differs : wanted ≠ Tag.certificateStart ++ id := by
        rintro rfl
        rw [Text.startsWith_append] at other
        cases other
      rw [addCertificates, ih, Table.get?_insert_of_ne _ differs]

theorem get?_setCertificates {tags : Tags} {wanted : String} (schedule : Schedule)
    (other : Text.startsWith Tag.certificateStart wanted = false) :
    (tags.setCertificates schedule).get? wanted = tags.get? wanted := by
  rw [setCertificates, get?_addCertificates _ other, Table.get?_filter]
  cases tags.get? wanted <;> simp [Option.filter, other]

theorem get?_setCompatibility (tags : Tags) (key : CompatibilityKey) {wanted : String}
    (other : wanted ∉ Tag.compatibility) :
    (tags.setCompatibility key).get? wanted = tags.get? wanted := by
  simp only [Tag.compatibility, List.mem_cons, List.not_mem_nil, or_false, not_or] at other
  obtain ⟨scheme, group, policy, type, family, http2, webAcl⟩ := other
  rw [setCompatibility, get?_put_of_ne _ webAcl, Table.get?_insert_of_ne _ http2,
    Table.get?_insert_of_ne _ family, Table.get?_insert_of_ne _ type,
    Table.get?_insert_of_ne _ policy, Table.get?_insert_of_ne _ group,
    Table.get?_insert_of_ne _ scheme]

/-- Each certificate tag is read by itself and decides about its certificate alone. -/
theorem scheduleFrom_get? {schedule result : Schedule} {rows : List (String × String)}
    (increasing : rows.Pairwise fun first second => compare first.1 second.1 = .lt)
    (read : scheduleFrom schedule rows = .ok result) (id : CertificateId) :
    match Table.lookup (Tag.certificateStart ++ id) rows with
    | none => result.get? id = schedule.get? id
    | some value => ∃ removal, readRemoval (Tag.certificateStart ++ id) value = .ok removal ∧
        result.get? id = some removal := by
  induction rows generalizing schedule with
  | nil =>
      cases read
      rfl
  | cons row rest ih =>
      obtain ⟨key, value⟩ := row
      obtain ⟨above, rising⟩ := List.pairwise_cons.mp increasing
      rw [scheduleFrom] at read
      by_cases here : Tag.certificateStart ++ id = key
      · subst here
        -- The keys increase, so no later tag decides about this certificate again.
        have absent : Table.lookup (Tag.certificateStart ++ id) rest = none :=
          Table.lookup_eq_none_of_below above
        have cut := Text.afterStart?_eq_some_iff.mpr (rfl : Tag.certificateStart ++ id = _)
        simp only [cut] at read
        obtain ⟨removal, removed, read⟩ := Attempt.bind_eq_ok_iff.mp read
        have kept := ih rising read
        rw [absent] at kept
        simp only [Table.lookup, Std.ReflCmp.compare_self, ↓reduceIte]
        exact ⟨removal, removed, kept.trans (Table.get?_insert_self ..)⟩
      · rw [Table.lookup, if_neg fun same => here (Table.compare_eq_iff.mp same)]
        cases cut : Text.afterStart? Tag.certificateStart key with
        | none =>
            simp only [cut] at read
            exact ih rising read
        | some other =>
            simp only [cut] at read
            obtain ⟨removal, _, read⟩ := Attempt.bind_eq_ok_iff.mp read
            have differs : id ≠ other := by
              rintro rfl
              exact here (Text.afterStart?_eq_some_iff.mp cut).symm
            have kept := ih rising read
            rwa [Table.get?_insert_of_ne _ differs] at kept

theorem certificates_get? {tags : Tags} {schedule : Schedule} {id : CertificateId} {value : String}
    (read : tags.certificates = .ok schedule)
    (tagged : tags.get? (Tag.certificateStart ++ id) = some value) :
    ∃ removal, readRemoval (Tag.certificateStart ++ id) value = .ok removal ∧
      schedule.get? id = some removal := by
  have each := scheduleFrom_get? tags.increasing read id
  rw [Table.get?] at tagged
  rwa [tagged] at each

theorem certificates_stated {tags : Tags} {schedule : Schedule} {id : CertificateId}
    {removal : Option Instant} (read : tags.certificates = .ok schedule)
    (listed : schedule.get? id = some removal) :
    ∃ value, tags.get? (Tag.certificateStart ++ id) = some value ∧
      readRemoval (Tag.certificateStart ++ id) value = .ok removal := by
  have each := scheduleFrom_get? tags.increasing read id
  rw [Table.get?]
  cases tagged : Table.lookup (Tag.certificateStart ++ id) tags.entries with
  | none =>
      rw [tagged] at each
      exact nomatch listed.symm.trans each
  | some value =>
      rw [tagged] at each
      obtain ⟨other, stated, found⟩ := each
      obtain rfl : removal = other := Option.some.inj (listed.symm.trans found)
      exact ⟨value, rfl, stated⟩

theorem readRemoval_eq_none {key value : String} (read : readRemoval key value = .ok none) :
    value = Tag.keepIndefinitely := by
  by_cases kept : value = Tag.keepIndefinitely
  · exact kept
  · rw [readRemoval, if_neg kept] at read
    obtain ⟨moment, _, same⟩ := Attempt.map_eq_ok_iff.mp read
    cases same

theorem readRemoval_eq_some {key value : String} {moment : Instant}
    (read : readRemoval key value = .ok (some moment)) :
    value ≠ Tag.keepIndefinitely ∧ Stamp.strict value = .ok moment := by
  by_cases kept : value = Tag.keepIndefinitely
  · rw [readRemoval, if_pos kept] at read
    cases read
  · rw [readRemoval, if_neg kept] at read
    obtain ⟨other, timed, same⟩ := Attempt.map_eq_ok_iff.mp read
    cases same
    exact ⟨kept, Tag.readTime_eq_ok timed⟩

theorem deletionScheduledAt_eq_some {tags : Tags} {due : Instant}
    (read : tags.deletionScheduledAt = .ok (some due)) :
    ∃ value, tags.get? Tag.deletionScheduled = some value ∧ Stamp.strict value = .ok due := by
  rw [deletionScheduledAt] at read
  cases tagged : tags.get? Tag.deletionScheduled with
  | none =>
      rw [tagged] at read
      cases read
  | some value =>
      rw [tagged] at read
      obtain ⟨moment, timed, same⟩ := Attempt.map_eq_ok_iff.mp read
      cases same
      exact ⟨value, rfl, Tag.readTime_eq_ok timed⟩

end Tags

namespace Descriptor

theorem tagsFor_unscheduled (descriptor : Descriptor) (cluster : String) (schedule : Schedule) :
    (descriptor.tagsFor cluster schedule).get? Tag.deletionScheduled = none := by
  rw [tagsFor, Tags.setAlarmHash, Tags.get?_put_of_ne _ (by decide),
    Tags.get?_setCertificates _ (by decide), Tags.setOwner, Tags.get?_put_of_ne _ (by decide),
    Tags.setShared, Table.get?_insert_of_ne _ (by decide), Tags.get?_setCompatibility _ _ (by decide),
    Tags.ownedBy, Table.get?_insert_of_ne _ (by decide), Table.get?_insert_of_ne _ (by decide)]
  rfl

theorem spec_unscheduled {descriptor : Descriptor} {name : StackName} {cluster : String}
    {now : Instant} {grace : Span} {spec : StackSpec}
    (requested : descriptor.spec name cluster now grace = .ok spec) :
    spec.tags.get? Tag.deletionScheduled = none := by
  obtain ⟨schedule, _, same⟩ := Attempt.bind_eq_ok_iff.mp requested
  cases same
  exact tagsFor_unscheduled descriptor cluster schedule

end Descriptor

namespace ObservedStack

structure Reflects (observed : ObservedStack) (stack : Stack) : Prop where
  stack_eq : observed.stack = stack
  key : stack.tags.compatibility = .ok observed.key
  shared : stack.tags.shared = .ok observed.shared
  owner : stack.tags.owner = .ok observed.owner
  owned : observed.shared = false → observed.owner.isSome = true
  certificates : stack.tags.certificates = .ok observed.certificates
  deletion : stack.tags.deletionScheduledAt = .ok observed.deletionScheduledAt

theorem ofStack_eq_ok_iff {stack : Stack} {observed : ObservedStack} :
    ofStack stack = .ok observed ↔ observed.Reflects stack := by
  constructor
  · intro read
    obtain ⟨key, keyed, read⟩ := Attempt.bind_eq_ok_iff.mp read
    obtain ⟨shared, sharing, read⟩ := Attempt.bind_eq_ok_iff.mp read
    obtain ⟨owner, owning, read⟩ := Attempt.bind_eq_ok_iff.mp read
    by_cases ownerless : (!shared && owner.isNone) = true
    · rw [if_pos ownerless] at read
      cases read
    · rw [if_neg ownerless] at read
      obtain ⟨certificates, certified, read⟩ := Attempt.bind_eq_ok_iff.mp read
      obtain ⟨moment, scheduled, read⟩ := Attempt.bind_eq_ok_iff.mp read
      cases read
      refine ⟨rfl, keyed, sharing, owning, ?_, certified, scheduled⟩
      rintro (rfl : shared = false)
      cases owner with
      | none => exact absurd rfl ownerless
      | some id => rfl
  · rintro ⟨rfl, keyed, sharing, owning, owned, certified, scheduled⟩
    have owned : (!observed.shared && observed.owner.isNone) = false := by
      cases shared : observed.shared with
      | true => rfl
      | false => simpa using owned shared
    simp only [ofStack, keyed, sharing, owning, certified, scheduled, bind, Except.bind, owned,
      Bool.false_eq_true, ↓reduceIte]
    rfl

theorem reflects_unique {stack : Stack} {first second : ObservedStack}
    (reflects : first.Reflects stack) (reflects' : second.Reflects stack) : first = second :=
  Except.ok.inj ((ofStack_eq_ok_iff.mpr reflects).symm.trans (ofStack_eq_ok_iff.mpr reflects'))

theorem ofStack_congr {stack other : Stack} {observed : ObservedStack}
    (same : other.tags = stack.tags) (read : ofStack stack = .ok observed) :
    ofStack other = .ok { observed with stack := other } := by
  obtain ⟨_, keyed, sharing, owning, owned, certified, scheduled⟩ := ofStack_eq_ok_iff.mp read
  rw [← same] at keyed sharing owning certified scheduled
  exact ofStack_eq_ok_iff.mpr ⟨rfl, keyed, sharing, owning, owned, certified, scheduled⟩

theorem ofStack_eq_ok {stack : Stack} {observed : ObservedStack}
    (read : ofStack stack = .ok observed) : observed.stack = stack ∧
      stack.tags.certificates = .ok observed.certificates ∧
      stack.tags.deletionScheduledAt = .ok observed.deletionScheduledAt :=
  have reflects := ofStack_eq_ok_iff.mp read
  ⟨reflects.stack_eq, reflects.certificates, reflects.deletion⟩

end ObservedStack

end IngressControl
