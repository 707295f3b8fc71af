import IngressControl.Proofs.Endpoint.Identity
import IngressControl.Proofs.Instant.Grace
import IngressControl.Proofs.Stack.Tags
/-!
Reading the tags of a stack gives back what was written into them.

Every setter is undone by its own reader and is invisible to all others. Only removal times change
on the way: they lose the fraction of their second.
-/

namespace IngressControl

namespace Tag

@[simp] theorem readFlag_flagText (key : String) (value : Bool) :
    readFlag key (flagText value) = .ok value := by
  cases value <;> rfl

@[simp] theorem readChoice_scheme (key : String) (scheme : Scheme) :
    (readChoice key (Choice.name scheme) : Except Failure Scheme) = .ok scheme := by
  cases scheme <;> rfl

@[simp] theorem readChoice_loadBalancerType (key : String) (type : LoadBalancerType) :
    (readChoice key (Choice.name type) : Except Failure LoadBalancerType) = .ok type := by
  cases type <;> rfl

@[simp] theorem readChoice_addressFamily (key : String) (family : AddressFamily) :
    (readChoice key (Choice.name family) : Except Failure AddressFamily) = .ok family := by
  cases family <;> rfl

theorem certificateStart_injective {first second : String}
    (same : certificateStart ++ first = certificateStart ++ second) : first = second := by
  have chars := congrArg String.toList same
  rw [String.toList_append, String.toList_append] at chars
  exact String.toList_inj.mp (List.append_cancel_left chars)

end Tag

namespace Tags

theorem get?_put_self (tags : Tags) (key : String) (value : Option String) :
    (tags.put key value).get? key = value := by
  cases value with
  | none => exact Table.get?_erase_self ..
  | some text => exact Table.get?_insert_self ..

theorem get?_addCertificates_own {tags : Tags} {rows : List (CertificateId × Option Instant)}
    (increasing : rows.Pairwise fun first second => compare first.1 second.1 = .lt)
    (id : CertificateId) : (tags.addCertificates rows).get? (Tag.certificateStart ++ id)
      = ((Table.lookup id rows).map removalText).or (tags.get? (Tag.certificateStart ++ id)) := by
  induction rows generalizing tags with
  | nil => rfl
  | cons row rest ih =>
      obtain ⟨stored, removal⟩ := row
      obtain ⟨above, rising⟩ := List.pairwise_cons.mp increasing
      rw [addCertificates, ih rising]
      by_cases same : id = stored
      · subst same
        -- No later row writes this tag again.
        rw [Table.lookup_eq_none_of_below above, Table.get?_insert_self]
        simp [Table.lookup, Std.ReflCmp.compare_self]
      · rw [Table.get?_insert_of_ne _ fun equal => same (Tag.certificateStart_injective equal)]
        simp [Table.lookup, same]

theorem get?_setCertificates_own (tags : Tags) (schedule : Schedule) (id : CertificateId) :
    (tags.setCertificates schedule).get? (Tag.certificateStart ++ id)
      = (schedule.get? id).map removalText := by
  rw [setCertificates, get?_addCertificates_own schedule.increasing, Table.get?_filter]
  have own := Text.startsWith_append Tag.certificateStart id
  cases tags.get? (Tag.certificateStart ++ id) <;> simp [Option.filter, own, Table.get?]

theorem scheduleFrom_ok {rows : List (String × String)}
    (readable : ∀ row ∈ rows, Text.startsWith Tag.certificateStart row.1 = true →
      ∃ removal, readRemoval row.1 row.2 = .ok removal) (schedule : Schedule) :
    ∃ result, scheduleFrom schedule rows = .ok result := by
  induction rows generalizing schedule with
  | nil => exact ⟨schedule, rfl⟩
  | cons row rest ih =>
      obtain ⟨key, value⟩ := row
      have later := ih fun row member => readable row (.tail _ member)
      rw [scheduleFrom]
      cases cut : Text.afterStart? Tag.certificateStart key with
      | none => exact later schedule
      | some id =>
          have own : Text.startsWith Tag.certificateStart key = true := by
            rw [Text.afterStart?_eq_some_iff.mp cut]
            exact Text.startsWith_append ..
          obtain ⟨removal, read⟩ := readable (key, value) (.head _) own
          obtain ⟨result, rest_read⟩ := later (schedule.insert id removal)
          exact ⟨result, Attempt.bind_eq_ok_iff.mpr ⟨removal, read, rest_read⟩⟩

theorem scheduleFrom_filter (schedule : Schedule) (rows : List (String × String)) :
    scheduleFrom schedule (rows.filter fun row => Text.startsWith Tag.certificateStart row.1)
      = scheduleFrom schedule rows := by
  induction rows generalizing schedule with
  | nil => rfl
  | cons row rest ih =>
      obtain ⟨key, value⟩ := row
      cases cut : Text.withoutStart? Tag.certificateStart.toList key.toList with
      | none =>
          rw [List.filter_cons_of_neg (by simp [Text.startsWith, cut]), ih]
          simp [scheduleFrom, Text.afterStart?, cut]
      | some id =>
          rw [List.filter_cons_of_pos (by simp [Text.startsWith, cut])]
          simp [scheduleFrom, Text.afterStart?, cut, ih]

theorem certificates_congr {tags other : Tags}
    (same : ∀ key, Text.startsWith Tag.certificateStart key = true →
      tags.get? key = other.get? key) : tags.certificates = other.certificates := by
  have kept : tags.filter (fun key _ => Text.startsWith Tag.certificateStart key)
      = other.filter fun key _ => Text.startsWith Tag.certificateStart key := by
    apply Table.ext_get?
    intro wanted
    rw [Table.get?_filter, Table.get?_filter]
    cases own : Text.startsWith Tag.certificateStart wanted with
    | true => rw [same wanted own]
    | false => cases tags.get? wanted <;> cases other.get? wanted <;> simp [Option.filter]
  rw [certificates, certificates, ← scheduleFrom_filter, ← scheduleFrom_filter {} other.entries]
  exact congrArg (fun table : Tags => scheduleFrom {} table.entries) kept

theorem certificates_put (tags : Tags) {key : String} (value : Option String)
    (other : Text.startsWith Tag.certificateStart key = false) :
    (tags.put key value).certificates = tags.certificates := by
  apply certificates_congr
  intro wanted own
  refine get?_put_of_ne _ ?_
  rintro rfl
  rw [own] at other
  cases other

/-- A schedule as it comes back from the tags: a removal time in the second that stands for a
certificate that is kept is lost. -/
def recalled (schedule : Schedule) : Schedule :=
  schedule.mapValues fun _ removal => removal.bind Instant.recalled

theorem get?_recalled (schedule : Schedule) (id : CertificateId) :
    (recalled schedule).get? id = (schedule.get? id).map (·.bind Instant.recalled) := by
  rw [recalled, Table.get?_mapValues]

theorem readRemoval_removalText (key : String) {removal : Option Instant}
    (plain : ∀ moment, removal = some moment → moment.HasPlainYear) :
    readRemoval key (removalText removal) = .ok (removal.bind Instant.recalled) := by
  cases removal with
  | none => rfl
  | some moment =>
      have plain := plain moment rfl
      have text : removalText (some moment) = moment.secondText := rfl
      rw [text, readRemoval, Option.bind_some, Instant.recalled]
      by_cases past : moment.stamped = Instant.distantPast
      · rw [if_pos past, if_pos ((Instant.secondText_eq_keepIndefinitely_iff plain).mpr past)]
      · rw [if_neg past, if_neg (past ∘ (Instant.secondText_eq_keepIndefinitely_iff plain).mp)]
        simp only [Tag.readTime, Stamp.strict_secondText plain]
        rfl

end Tags

def Schedule.Plain (schedule : Schedule) : Prop :=
  ∀ id moment, schedule.get? id = some (some moment) → moment.HasPlainYear

namespace Tags

theorem recalled_plain {schedule : Schedule} (plain : schedule.Plain) :
    Schedule.Plain (recalled schedule) := by
  intro id moment found
  rw [get?_recalled] at found
  obtain ⟨removal, stated, same⟩ := Option.map_eq_some_iff.mp found
  obtain ⟨due, rfl, read⟩ := Option.bind_eq_some_iff.mp same
  rw [Instant.recalled] at read
  split at read
  · cases read
  · cases read
    exact (Instant.storable_stamped (plain id due stated)).plain

theorem certificates_setCertificates (tags : Tags) {schedule : Schedule} (plain : schedule.Plain) :
    (tags.setCertificates schedule).certificates = .ok (recalled schedule) := by
  have read (id : CertificateId) (removal : Option Instant)
      (found : schedule.get? id = some removal) (key : String) :
      readRemoval key (removalText removal) = .ok (removal.bind Instant.recalled) :=
    readRemoval_removalText key fun moment same => plain id moment (same ▸ found)
  have readable : ∀ row ∈ (tags.setCertificates schedule).entries,
      Text.startsWith Tag.certificateStart row.1 = true →
        ∃ removal, readRemoval row.1 row.2 = .ok removal := by
    rintro ⟨key, value⟩ member own
    obtain ⟨rest, cut⟩ := Option.isSome_iff_exists.mp own
    obtain rfl : key = Tag.certificateStart ++ String.ofList rest :=
      Text.afterStart?_eq_some_iff.mp (by simp [Text.afterStart?, cut])
    have found := Table.mem_entries.mp member
    rw [get?_setCertificates_own, Option.map_eq_some_iff] at found
    obtain ⟨removal, stated, rfl⟩ := found
    exact ⟨_, read _ _ stated _⟩
  obtain ⟨result, done⟩ := scheduleFrom_ok readable {}
  rw [certificates, done]
  congr 1
  apply Table.ext_get?
  intro id
  have each := scheduleFrom_get? (tags.setCertificates schedule).increasing done id
  have found := get?_setCertificates_own tags schedule id
  rw [Table.get?] at found
  rw [found] at each
  rw [get?_recalled]
  cases stated : schedule.get? id with
  | none =>
      rw [stated] at each
      exact each
  | some removal =>
      rw [stated] at each
      obtain ⟨other, again, looked⟩ := each
      rw [read id removal stated] at again
      cases again
      exact looked

def written (schedule : Schedule) : Schedule :=
  schedule.mapValues fun _ removal => removal.map Instant.stamped

theorem get?_written (schedule : Schedule) (id : CertificateId) :
    (written schedule).get? id = (schedule.get? id).map (Option.map Instant.stamped) := by
  rw [written, Table.get?_mapValues]

structure Legible (moment : Instant) : Prop where
  plain : moment.HasPlainYear
  distinct : moment.secondText ≠ Tag.keepIndefinitely

/-- Nothing but fractions is lost of times that can be told from that of a certificate that is
kept. -/
theorem recalled_eq_written {schedule : Schedule}
    (legible : ∀ id moment, schedule.get? id = some (some moment) → Legible moment) :
    recalled schedule = written schedule := by
  apply Table.ext_get?
  intro id
  rw [get?_recalled, get?_written]
  cases found : schedule.get? id with
  | none => rfl
  | some removal =>
      cases removal with
      | none => rfl
      | some moment =>
          have legible := legible id moment found
          have ahead : moment.stamped ≠ Instant.distantPast :=
            legible.distinct ∘ (Instant.secondText_eq_keepIndefinitely_iff legible.plain).mpr
          simp [Instant.recalled, ahead]

end Tags

end IngressControl
