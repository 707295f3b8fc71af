import IngressControl.Proofs.Descriptor.Occupancy
import IngressControl.Proofs.Json.Compact
import IngressControl.Proofs.Stack.Attributes
import IngressControl.Text.Utf8
/-!
The digest of alarm definitions tells every change of them.

The bytes that are digested determine the definitions in full: members that are left out because they
say nothing are told from those that are written by the key that comes next.
-/

namespace IngressControl

namespace Utf8

theorem toList_loop (bytes : ByteArray) (index : Nat) (done : List UInt8) :
    ByteArray.toList.loop bytes index done = done.reverse ++ bytes.data.toList.drop index := by
  induction index, done using ByteArray.toList.loop.induct bytes with
  | case1 index done before ih =>
      have next : bytes.data.toList.drop index
          = bytes.get! index :: bytes.data.toList.drop (index + 1) := by
        rw [List.drop_eq_getElem_cons (by simpa using before)]
        simp [ByteArray.get!, before]
      rw [ByteArray.toList.loop, if_pos before, ih, next]
      simp
  | case2 index done after =>
      rw [ByteArray.toList.loop, if_neg after, List.drop_of_length_le (by simpa using after),
        List.append_nil]

theorem encode_injective : Function.Injective encode := by
  intro first second same
  simp only [encode, ByteArray.toList, toList_loop, List.reverse_nil, List.nil_append,
    List.drop_zero] at same
  exact String.toByteArray_inj.mp (ByteArray.ext (Array.toList_inj.mp same))

end Utf8

namespace AlarmDimension

theorem json_injective : Function.Injective json := by
  rintro ⟨name, value⟩ ⟨name', value'⟩ same
  simpa [json] using same

theorem json_plain (dimension : AlarmDimension) : dimension.json.Plain := by
  refine .object fun entry member => ?_
  simp only [List.mem_cons, List.not_mem_nil, or_false] at member
  rcases member with rfl | rfl
  · exact .text _
  · exact .text _

end AlarmDimension

namespace Json

variable {α : Type} {write : α → Json}

theorem text_injective : Function.Injective Json.text := fun _ _ => Json.text.inj

theorem list_injective (injective : Function.Injective write) :
    Function.Injective fun items : List α => Json.list (items.map write) :=
  fun _ _ same => List.map_injective_iff.mpr injective (Json.list.inj same)

theorem list_plain {items : List α} (plain : ∀ item ∈ items, (write item).Plain) :
    (Json.list (items.map write)).Plain := by
  refine .list fun json member => ?_
  obtain ⟨item, present, rfl⟩ := List.mem_map.mp member
  exact plain item present

end Json

namespace AlarmDefinition

section Member

variable {key other : String} {value value' : Option Json} {rest rest' : List (String × Json)}

def Clear (key : String) (rest : List (String × Json)) : Prop :=
  ∀ entry ∈ rest.head?, entry.1 ≠ key

theorem clear_nil (key : String) : Clear key [] := by simp [Clear]

theorem clear_cons {json : Json} (differs : other ≠ key) : Clear key ((other, json) :: rest) := by
  simpa [Clear] using differs

theorem clear_member (differs : other ≠ key) (clear : Clear key rest) :
    Clear key (member other value ++ rest) := by
  cases value with
  | none => exact clear
  | some value => exact clear_cons differs

theorem clear_last (differs : other ≠ key) : Clear key (member other value) := by
  rw [← List.append_nil (member other value)]
  exact clear_member differs (clear_nil key)

/-- Whether a member was left out is told by the key that comes next. -/
theorem member_inj (clear : Clear key rest) (clear' : Clear key rest')
    (same : member key value ++ rest = member key value' ++ rest') :
    value = value' ∧ rest = rest' := by
  rcases value with _ | value <;> rcases value' with _ | value'
  · exact ⟨rfl, same⟩
  · exact absurd rfl (clear (key, value') (congrArg List.head? same))
  · exact absurd rfl (clear' (key, value) (congrArg List.head? same).symm)
  · obtain ⟨heads, rests⟩ := List.cons.inj same
    exact ⟨congrArg some (Prod.mk.inj heads).2, rests⟩

theorem list_inj {α : Type} {write : List α → Json} (injective : Function.Injective write)
    {first second : List α}
    (same : (if first.isEmpty then none else some (write first))
      = if second.isEmpty then none else some (write second)) : first = second := by
  cases first <;> cases second
  · rfl
  · cases same
  · cases same
  · exact injective (Option.some.inj same)

end Member

/-- The record of a definition determines it in every field. -/
theorem json_injective : Function.Injective json := by
  rintro ⟨alarmName, description, metricName, space, statistic, period, evaluationPeriods, threshold,
    comparison, dimensions, actions, missingData⟩
    ⟨alarmName', description', metricName', space', statistic', period', evaluationPeriods',
      threshold', comparison', dimensions', actions', missingData'⟩ same
  simp only [json, List.cons_append, List.nil_append, List.append_assoc, Json.object.injEq,
    List.cons.injEq, Prod.mk.injEq, true_and, Json.text.injEq] at same
  obtain ⟨names, described⟩ := same
  obtain ⟨descriptions, required⟩ :=
    member_inj (clear_cons (by decide)) (clear_cons (by decide)) described
  simp only [List.cons.injEq, Prod.mk.injEq, true_and, Json.text.injEq, Json.integer.injEq,
    Json.number.injEq, Int.natCast_inj] at required
  obtain ⟨metrics, spaces, statistics, periods, evaluations, thresholds, comparisons, optional⟩ :=
    required
  have no_dimensions {value value' : Option Json} : Clear "Dimensions"
      (member "AlarmActions" value ++ member "TreatMissingData" value') :=
    clear_member (by decide) (clear_last (by decide))
  obtain ⟨dimensionLists, others⟩ := member_inj no_dimensions no_dimensions optional
  obtain ⟨actionLists, last⟩ :=
    member_inj (clear_last (by decide)) (clear_last (by decide)) others
  obtain ⟨treatments, _⟩ := member_inj (clear_nil _) (clear_nil _) (congrArg (· ++ []) last)
  subst names metrics spaces statistics periods evaluations thresholds comparisons
  rw [Option.map_injective Json.text_injective descriptions,
    list_inj (Json.list_injective AlarmDimension.json_injective) dimensionLists,
    list_inj (Json.list_injective Json.text_injective) actionLists,
    Option.map_injective Json.text_injective treatments]

theorem member_plain {key : String} {value : Option Json} (plain : ∀ json ∈ value, json.Plain) :
    ∀ entry ∈ member key value, entry.2.Plain := by
  intro entry present
  obtain ⟨json, same, rfl⟩ : ∃ json, value = some json ∧ (key, json) = entry := by
    simpa [member] using present
  exact plain json same

theorem optional_plain (value : Option String) : ∀ json ∈ value.map Json.text, json.Plain := by
  rintro json present
  obtain ⟨text, _, rfl⟩ := Option.map_eq_some_iff.mp present
  exact .text text

theorem unless_empty_plain {empty : Bool} {value : Json} (plain : value.Plain) :
    ∀ json ∈ if empty then none else some value, json.Plain := by
  cases empty
  · rintro _ ⟨⟩
    exact plain
  · rintro _ ⟨⟩

theorem json_plain {alarm : AlarmDefinition} (finite : alarm.threshold.Proper) :
    alarm.json.Plain := by
  have dimensions : (Json.list (alarm.dimensions.map AlarmDimension.json)).Plain :=
    Json.list_plain fun dimension _ => dimension.json_plain
  have actions : (Json.texts alarm.actions).Plain := Json.list_plain fun action _ => .text action
  have none : ∀ entry ∈ ([] : List (String × Json)), entry.2.Plain := by simp
  refine .object ?_
  simp only [List.forall_mem_append, List.forall_mem_cons]
  exact ⟨⟨⟨⟨⟨⟨.text _, none⟩, member_plain (optional_plain _)⟩,
      .text _, .text _, .text _, .integer _, .integer _, .number finite, .text _, none⟩,
    member_plain (unless_empty_plain dimensions)⟩, member_plain (unless_empty_plain actions)⟩,
    member_plain (optional_plain _)⟩

end AlarmDefinition

namespace AlarmSet

def Finite (alarms : AlarmSet) : Prop := ∀ alarm ∈ alarms, alarm.threshold.Proper

def digested (alarms : AlarmSet) : List UInt8 := alarms.json.compact.toUTF8.toList

theorem hash?_of_ne_nil {alarms : AlarmSet} (filled : alarms ≠ []) :
    hash? alarms = some (Sha256.text alarms.digested) := by
  rw [hash?, if_neg (by simpa using filled), digested]

theorem json_plain {alarms : AlarmSet} (finite : alarms.Finite) : alarms.json.Plain :=
  Json.list_plain fun alarm member => AlarmDefinition.json_plain (finite alarm member)

theorem digested_injective {first second : AlarmSet} (finite : first.Finite)
    (finite' : second.Finite) (same : first.digested = second.digested) : first = second :=
  Json.list_injective AlarmDefinition.json_injective
    (Json.compact_injective (json_plain finite) (json_plain finite') (Utf8.encode_injective same))

/-- Different alarm sets have different digests, unless the digest collides on just their bytes. -/
theorem hash?_ne {first second : AlarmSet} (finite : first.Finite) (finite' : second.Finite)
    (told : Sha256.text first.digested = Sha256.text second.digested →
      first.digested = second.digested) (filled : first ≠ []) (differ : first ≠ second) :
    hash? first ≠ hash? second := by
  rw [hash?_of_ne_nil filled]
  rcases eq_or_ne second [] with rfl | filled'
  · exact Option.some_ne_none _
  · rw [hash?_of_ne_nil filled']
    exact fun same => differ (digested_injective finite finite' (told (Option.some.inj same)))

end AlarmSet

namespace Descriptor

theorem mem_driftFrom_alarms {descriptor : Descriptor} {observed : ObservedStack}
    {wanted : AlarmSet} (known : descriptor.alarms = some wanted)
    (differs : AlarmSet.hash? wanted ≠ observed.alarmHash?) (schedule : Schedule) :
    .alarms ∈ descriptor.driftFrom observed schedule := by
  have desired : descriptor.desiredAlarmHash = AlarmSet.hash? wanted := by
    rw [desiredAlarmHash, known]
  simp [driftFrom, driftIf, known, desired, differs]

end Descriptor

namespace AlarmSet

/-- No change of the alarms is missed. What is digested determines the definitions in every field, and
a load balancer on whose stack the digest of other alarms stands has drifted in its alarms, unless
the digest collides on just these two. -/
theorem digest_tells_changes :
    (∀ first second : AlarmSet, first.Finite → second.Finite →
      first.digested = second.digested → first = second) ∧
    ∀ (descriptor : Descriptor) (observed : ObservedStack) (wanted recorded : AlarmSet)
      (now : Instant) (grace : Span), wanted.Finite → recorded.Finite →
      (Sha256.text wanted.digested = Sha256.text recorded.digested →
        wanted.digested = recorded.digested) →
      descriptor.existing = some observed → descriptor.alarms = some wanted →
      observed.alarmHash? = hash? recorded → wanted ≠ [] → wanted ≠ recorded →
      (∀ parts, descriptor.drift now grace = .ok parts → .alarms ∈ parts) ∧
        ((now.plus? grace).isSome = true →
          ∃ parts, descriptor.drift now grace = .ok parts ∧ .alarms ∈ parts) := by
  refine ⟨fun _ _ => digested_injective, ?_⟩
  intro descriptor observed wanted recorded now grace finite finite' told old known noted filled differ
  have drifts : ∀ schedule, .alarms ∈ descriptor.driftFrom observed schedule :=
    Descriptor.mem_driftFrom_alarms known (noted ▸ hash?_ne finite finite' told filled differ)
  constructor
  · intro parts drifted
    rw [Descriptor.drift, old] at drifted
    obtain ⟨schedule, _, rfl⟩ := Attempt.map_eq_ok_iff.mp drifted
    exact drifts schedule
  · intro ends
    obtain ⟨later, ends⟩ := Option.isSome_iff_exists.mp ends
    obtain ⟨schedule, desired, _⟩ := descriptor.desiredCertificates_get? ends
    exact ⟨_, by rw [Descriptor.drift, old, desired]; rfl, drifts schedule⟩

def latency : AlarmDefinition where
  alarmName := "slow"
  metricName := "time"
  space := "aws"
  statistic := "Sum"
  period := 60
  evaluationPeriods := 3
  threshold := .ofInt 3
  comparison := "above"

def watchedBalancer : Descriptor where
  key :=
    { scheme := .internal, securityGroup := "", sslPolicy := ""
      loadBalancerType := .network, addressFamily := .dualstack, http2 := false, webAcl := none }
  shared := true
  owner := none
  alarms := some [{ latency with period := 300 }]
  existing := some {
    stack :=
      { name := "old", status := .updateComplete, dnsName := none, targetGroup := none
        createdAt := ⟨1767225600, 0⟩, tags := Tags.setAlarmHash {} (hash? [latency]) }
    key :=
      { scheme := .internal, securityGroup := "", sslPolicy := ""
        loadBalancerType := .network, addressFamily := .dualstack, http2 := false, webAcl := none }
    shared := true
    owner := none
    certificates := {}
    deletionScheduledAt := none }

theorem watchedBalancer_drifts :
    ∃ parts, watchedBalancer.drift ⟨1772366400, 5⟩ ⟨3600 * Span.billion⟩ = .ok parts ∧
      .alarms ∈ parts := by
  have finite : Finite [{ latency with period := 300 }] ∧ Finite [latency] := by
    simp only [Finite, List.forall_mem_singleton]
    exact ⟨⟨by decide, by decide, by decide, by decide⟩, ⟨by decide, by decide, by decide, by decide⟩⟩
  have differ : Sha256.text (digested [{ latency with period := 300 }])
      ≠ Sha256.text (digested [latency]) := by decide +kernel
  have noted : Tags.alarmHash? (Tags.setAlarmHash {} (hash? [latency])) = hash? [latency] :=
    Tags.get?_put_self ..
  exact (digest_tells_changes.2 watchedBalancer _ _ [latency] _ _ finite.1 finite.2
    (fun same => absurd same differ) rfl rfl noted (by simp) (by simp [latency])).2 (by decide +kernel)

end AlarmSet

end IngressControl
