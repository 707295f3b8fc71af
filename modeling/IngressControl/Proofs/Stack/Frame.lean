import IngressControl.Proofs.Stack.Attributes
/-!
The traits in the tags of a stack do not get into each other's way.

Every tag belongs to one trait at most. A trait is read from its own tags and set in those
alone: it is read as it was set, and all others are read as before, or fail as before. The tags of
certificates stand together in key order, so that those from the first possible one up to the first of
another kind are all of them.
-/

namespace IngressControl

structure Instant.Whole (moment : Instant) : Prop where
  plain : moment.HasPlainYear
  nano : moment.nano = 0

theorem Instant.stamped_of_whole {moment : Instant} (whole : moment.Whole) :
    moment.stamped = moment := by
  obtain ⟨second, nano⟩ := moment
  cases whole.nano
  rfl

namespace Text

theorem compare_eq_lt_iff {first second : String} :
    compare first second = .lt ↔ first.toList < second.toList :=
  compareOfLessAndEq_eq_lt.trans String.lt_iff

theorem startsWith_iff {start text : String} :
    startsWith start text = true ↔ start.toList <+: text.toList := by
  rw [startsWith, Option.isSome_iff_exists]
  exact exists_congr fun rest => withoutStart?_eq_some_iff.trans eq_comm

theorem not_append_lt (start rest : List Char) : ¬ start ++ rest < start := by
  induction start with
  | nil => exact List.not_lt_nil _
  | cons first start ih =>
      rw [List.cons_append, List.cons_lt_cons_iff]
      rintro (less | ⟨_, less⟩)
      · exact Char.lt_irrefl first less
      · exact ih less

/-- What lies between a start and a text that has it, has it as well. -/
theorem prefix_of_between {start chars beyond : List Char} (own : start <+: beyond)
    (least : ¬ chars < start) (below : chars < beyond) : start <+: chars := by
  induction start generalizing chars beyond with
  | nil => exact List.nil_prefix
  | cons first start ih =>
      obtain ⟨rest, rfl⟩ := own
      cases chars with
      | nil => exact absurd (List.nil_lt_cons first start) least
      | cons char chars =>
          rw [List.cons_append, List.cons_lt_cons_iff] at below
          rw [List.cons_lt_cons_iff, not_or, not_and] at least
          obtain ⟨rfl, less⟩ := below.resolve_left least.1
          exact List.cons_prefix_cons.mpr ⟨rfl, ih ⟨rest, rfl⟩ (least.2 rfl) less⟩

end Text

namespace Tags

section Range

def precedes (row : String × String) : Bool := compare row.1 Tag.certificateStart = .lt

def certifies (row : String × String) : Bool := Text.startsWith Tag.certificateStart row.1

/-- The tags from the first that a certificate can have, up to the first of another kind. -/
def certificateRange (tags : Tags) : List (String × String) :=
  (tags.entries.dropWhile precedes).takeWhile certifies

theorem not_precedes_of_certifies {row : String × String} (own : certifies row = true) :
    precedes row = false := by
  obtain ⟨rest, same⟩ := Text.startsWith_iff.mp own
  rw [precedes, decide_eq_false_iff_not, Text.compare_eq_lt_iff, ← same]
  exact Text.not_append_lt _ rest

theorem certifies_of_between {row beyond : String × String} (own : certifies beyond = true)
    (least : precedes row = false) (below : compare row.1 beyond.1 = .lt) :
    certifies row = true := by
  rw [precedes, decide_eq_false_iff_not, Text.compare_eq_lt_iff] at least
  exact Text.startsWith_iff.mpr (Text.prefix_of_between (Text.startsWith_iff.mp own) least
    (Text.compare_eq_lt_iff.mp below))

theorem takeWhile_certifies {rows : List (String × String)}
    (increasing : rows.Pairwise fun first second => compare first.1 second.1 = .lt)
    (least : ∀ row ∈ rows, precedes row = false) :
    rows.takeWhile certifies = rows.filter certifies := by
  induction rows with
  | nil => rfl
  | cons row rest ih =>
      obtain ⟨above, rising⟩ := List.pairwise_cons.mp increasing
      by_cases own : certifies row = true
      · rw [List.takeWhile_cons_of_pos own, List.filter_cons_of_pos own,
          ih rising fun row member => least row (.tail _ member)]
      -- None of the later tags is that of a certificate, or this one would be.
      · rw [List.takeWhile_cons_of_neg own, eq_comm, List.filter_eq_nil_iff]
        intro other member own'
        rcases List.mem_cons.mp member with rfl | later
        · exact own own'
        · exact own (certifies_of_between own' (least row (.head _)) (above other later))

theorem takeWhile_dropWhile_precedes {rows : List (String × String)}
    (increasing : rows.Pairwise fun first second => compare first.1 second.1 = .lt) :
    (rows.dropWhile precedes).takeWhile certifies = rows.filter certifies := by
  induction rows with
  | nil => rfl
  | cons row rest ih =>
      obtain ⟨above, rising⟩ := List.pairwise_cons.mp increasing
      by_cases early : precedes row = true
      · have foreign : ¬ certifies row = true := fun own => by
          rw [not_precedes_of_certifies own] at early
          cases early
        rw [List.dropWhile_cons_of_pos early, List.filter_cons_of_neg foreign, ih rising]
      · rw [List.dropWhile_cons_of_neg early]
        refine takeWhile_certifies increasing fun other member => Bool.eq_false_iff.mpr fun before => ?_
        rcases List.mem_cons.mp member with rfl | later
        · exact early before
        · exact early (decide_eq_true (Std.TransCmp.lt_trans (above other later)
            (of_decide_eq_true before)))

theorem certificateRange_eq (tags : Tags) :
    tags.certificateRange = tags.entries.filter certifies :=
  takeWhile_dropWhile_precedes tags.increasing

theorem scheduleFrom_certificateRange (tags : Tags) :
    scheduleFrom {} tags.certificateRange = tags.certificates := by
  rw [certificateRange_eq]
  exact scheduleFrom_filter {} tags.entries

end Range

inductive Trait where
  | owner
  | shared
  | certificates
  | deletion
  | compatibility
  | alarmHash
  | cluster
  deriving DecidableEq

namespace Trait

variable {trait : Trait} {tags other : Tags} {key : String}

abbrev Reading : Trait → Type
  | owner => Except Failure (Option EndpointId)
  | shared => Except Failure Bool
  | certificates => Except Failure Schedule
  | deletion => Except Failure (Option Instant)
  | compatibility => Except Failure CompatibilityKey
  | alarmHash => Option String
  | cluster => Option String

def read : (trait : Trait) → Tags → trait.Reading
  | owner, tags => tags.owner
  | shared, tags => tags.shared
  | certificates, tags => tags.certificates
  | deletion, tags => tags.deletionScheduledAt
  | compatibility, tags => tags.compatibility
  | alarmHash, tags => tags.alarmHash?
  | cluster, tags => tags.clusterId?

def ofKey? (key : String) : Option Trait :=
  if Text.startsWith Tag.certificateStart key then some certificates
  else if key = Tag.owner then some owner
  else if key = Tag.shared then some shared
  else if key = Tag.deletionScheduled then some deletion
  else if key = Tag.alarmHash then some alarmHash
  else if key = Tag.clusterId then some cluster
  else if key ∈ Tag.compatibility then some compatibility
  else none

theorem ofKey?_certificate (own : Text.startsWith Tag.certificateStart key = true) :
    ofKey? key = some certificates := if_pos own

theorem ofKey?_compatibility : ∀ key ∈ Tag.compatibility, ofKey? key = some compatibility := by
  decide

theorem read_congr (same : ∀ key, ofKey? key = some trait → tags.get? key = other.get? key) :
    trait.read tags = trait.read other := by
  cases trait with
  | owner => simp only [read, Tags.owner, same Tag.owner (by decide)]
  | shared => simp only [read, Tags.shared, same Tag.shared (by decide)]
  | certificates => exact certificates_congr fun key own => same key (ofKey?_certificate own)
  | deletion =>
      simp only [read, Tags.deletionScheduledAt, same Tag.deletionScheduled (by decide)]
  | compatibility =>
      exact compatibility_congr fun key member => same key (ofKey?_compatibility key member)
  | alarmHash => exact same Tag.alarmHash (by decide)
  | cluster => exact same Tag.clusterId (by decide)

end Trait

inductive Setting where
  | owner (id : Option EndpointId)
  | shared (flag : Bool)
  | certificates (schedule : Schedule)
  | deletion (moment : Option Instant)
  | compatibility (key : CompatibilityKey)
  | alarmHash (hash : Option String)

namespace Setting

variable {setting : Setting} {tags : Tags} {key : String}

def trait : Setting → Trait
  | owner _ => .owner
  | shared _ => .shared
  | certificates _ => .certificates
  | deletion _ => .deletion
  | compatibility _ => .compatibility
  | alarmHash _ => .alarmHash

def write : Setting → Tags → Tags
  | owner id, tags => tags.setOwner id
  | shared flag, tags => tags.setShared flag
  | certificates schedule, tags => tags.setCertificates schedule
  | deletion moment, tags => tags.setDeletionScheduledAt moment
  | compatibility key, tags => tags.setCompatibility key
  | alarmHash hash, tags => tags.setAlarmHash hash

def reading : (setting : Setting) → setting.trait.Reading
  | owner id => .ok id
  | shared flag => .ok flag
  | certificates schedule => .ok schedule
  | deletion moment => .ok moment
  | compatibility key => .ok key
  | alarmHash hash => hash

/-- The text that is written tells what is set: an owner can be told from its parts and a firewall
from none, times have no fractions, and no removal time stands for a certificate that is kept. -/
def Writable : Setting → Prop
  | owner id => ∀ holder, id = some holder → holder.Writable
  | shared _ => True
  | certificates schedule => ∀ id moment, schedule.get? id = some (some moment) →
      moment.Whole ∧ moment ≠ Instant.distantPast
  | deletion moment => ∀ due, moment = some due → due.Whole
  | compatibility key => key.webAcl ≠ some ""
  | alarmHash _ => True

theorem get?_write (foreign : Trait.ofKey? key ≠ some setting.trait) :
    (setting.write tags).get? key = tags.get? key := by
  have apart {own : String} (owned : Trait.ofKey? own = some setting.trait) : key ≠ own := by
    rintro rfl
    exact foreign owned
  cases setting with
  | owner id =>
      have own : Trait.ofKey? Tag.owner = some .owner := by decide
      exact get?_put_of_ne _ (apart own)
  | shared flag =>
      have own : Trait.ofKey? Tag.shared = some .shared := by decide
      exact Table.get?_insert_of_ne _ (apart own)
  | certificates schedule =>
      refine get?_setCertificates schedule (Bool.eq_false_iff.mpr fun own => ?_)
      exact foreign (Trait.ofKey?_certificate own)
  | deletion moment =>
      have own : Trait.ofKey? Tag.deletionScheduled = some .deletion := by decide
      exact get?_put_of_ne _ (apart own)
  | compatibility value =>
      exact get?_setCompatibility tags value fun member =>
        foreign (Trait.ofKey?_compatibility key member)
  | alarmHash hash =>
      have own : Trait.ofKey? Tag.alarmHash = some .alarmHash := by decide
      exact get?_put_of_ne _ (apart own)

end Setting

theorem owner_setOwner (tags : Tags) {owner : Option EndpointId}
    (writable : ∀ id, owner = some id → id.Writable) : (tags.setOwner owner).owner = .ok owner := by
  rw [Tags.owner, setOwner, get?_put_self]
  cases owner with
  | none => rfl
  | some id => simp only [Option.map_some, EndpointId.ofText_text (writable id rfl)]

theorem shared_setShared (tags : Tags) (shared : Bool) :
    (tags.setShared shared).shared = .ok shared := by
  rw [Tags.shared, setShared, Table.get?_insert_self]
  exact Tag.readFlag_flagText ..

theorem deletionScheduledAt_set (tags : Tags) {moment : Option Instant}
    (whole : ∀ due, moment = some due → due.Whole) :
    (tags.setDeletionScheduledAt moment).deletionScheduledAt = .ok moment := by
  rw [deletionScheduledAt, setDeletionScheduledAt, get?_put_self]
  cases moment with
  | none => rfl
  | some due =>
      have whole := whole due rfl
      simp only [Option.map_some, Tag.readTime, Stamp.strict_secondText whole.plain,
        Instant.stamped_of_whole whole]
      rfl

theorem recalled_eq_self {schedule : Schedule} (whole : ∀ id moment,
      schedule.get? id = some (some moment) → moment.Whole ∧ moment ≠ Instant.distantPast) :
    recalled schedule = schedule := by
  apply Table.ext_get?
  intro id
  rw [get?_recalled]
  cases found : schedule.get? id with
  | none => rfl
  | some removal =>
      cases removal with
      | none => rfl
      | some moment =>
          obtain ⟨whole, ahead⟩ := whole id moment found
          simp [Instant.recalled, Instant.stamped_of_whole whole, ahead]

namespace Setting

theorem read_write (tags : Tags) {setting : Setting} (writable : setting.Writable) :
    setting.trait.read (setting.write tags) = setting.reading := by
  cases setting with
  | owner id => exact owner_setOwner tags writable
  | shared flag => exact shared_setShared tags flag
  | certificates schedule =>
      have plain : schedule.Plain := fun id moment found => (writable id moment found).1.plain
      have read := certificates_setCertificates tags plain
      rwa [recalled_eq_self writable] at read
  | deletion moment => exact deletionScheduledAt_set tags writable
  | compatibility key => exact compatibility_setCompatibility tags writable
  | alarmHash hash => exact get?_put_self ..

/-- What is set is read, and nothing else reads differently. The certificates that are read are those
of the range. -/
theorem write_frames (setting : Setting) (tags : Tags) :
    (setting.Writable → setting.trait.read (setting.write tags) = setting.reading) ∧
      (∀ other, other ≠ setting.trait → other.read (setting.write tags) = other.read tags) ∧
      scheduleFrom {} tags.certificateRange = tags.certificates := by
  refine ⟨read_write tags, fun other apart => ?_, scheduleFrom_certificateRange tags⟩
  -- A tag that is read for another trait does not belong to the one that is set.
  refine Trait.read_congr fun key own => get?_write fun own' => ?_
  exact apart (Option.some.inj (own.symm.trans own'))

def littered : Tags := Table.ofList
  [(Tag.owner, "nobody"), (Tag.certificateStart ++ "old", "soon"), (Tag.shared, "perhaps"),
    ("ingress:certificate-arn", "-"), ("ingress:certificate-arn0", "-")]

def replacement : Schedule := Table.ofList [("", none), ("a/b c", some ⟨1767225600, 0⟩)]

theorem littered_frames :
    (certificates replacement).Writable ∧
      Trait.certificates.read littered
        = .error (.invalidTag "ingress:certificate-arn/old" "soon" "premature end of input") ∧
      Trait.certificates.read ((certificates replacement).write littered) = .ok replacement ∧
      Trait.owner.read ((certificates replacement).write littered)
        = .error (.invalidTag Tag.owner "nobody" "Invalid endpoint identity: nobody") := by
  have writable : (certificates replacement).Writable := by
    intro id moment found
    have member := Table.mem_entries.mpr found
    have only : replacement.entries = [("", none), ("a/b c", some ⟨1767225600, 0⟩)] := by
      decide +kernel
    rw [only] at member
    simp only [List.mem_cons, Prod.mk.injEq, reduceCtorEq, and_false, Option.some.injEq,
      List.not_mem_nil, or_false, false_or] at member
    obtain ⟨_, rfl⟩ := member
    exact ⟨⟨⟨by decide +kernel, by decide +kernel⟩, rfl⟩, by decide⟩
  obtain ⟨read, others, _⟩ := (certificates replacement).write_frames littered
  have owner := others .owner (by decide)
  exact ⟨writable, by decide +kernel, read writable, owner.trans (by decide +kernel)⟩

end Setting

end Tags

end IngressControl
