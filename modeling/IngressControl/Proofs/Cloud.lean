import IngressControl.Cloud
import IngressControl.Proofs.Attempt
import IngressControl.Proofs.Table
/-!
What a granted request does to the stacks of a cloud.

It changes no stack but its own, and leaves on that the deletion time that it states: none after a
creation or an update, its own after a scheduling. Along any sequence of granted requests a
deletion time therefore goes back to a scheduling that no update has followed, or to the start.
-/

namespace IngressControl

namespace StackRequest

def name : StackRequest → StackName
  | .create spec => spec.name
  | .update spec => spec.name
  | .scheduleDeletion stack _ => stack
  | .delete stack => stack

def mark : StackRequest → Option String
  | .create spec => spec.tags.get? Tag.deletionScheduled
  | .update spec => spec.tags.get? Tag.deletionScheduled
  | .scheduleDeletion _ moment => some moment.secondText
  | .delete _ => none

end StackRequest

namespace Cloud

def mark (cloud : Cloud) (name : StackName) : Option String :=
  (cloud.provisioned.get? name).bind fun stack => stack.tags.get? Tag.deletionScheduled

def Named (cloud : Cloud) : Prop :=
  ∀ name stack, cloud.provisioned.get? name = some stack → stack.name = name

variable {cloud after : Cloud} {createdAt : Instant} {request : StackRequest}

theorem permit_bind_eq_ok {operation : String} {α : Type} {next : Unit → Except Failure α}
    {value : α} (done : (cloud.permit operation >>= next) = .ok value) : next () = .ok value := by
  obtain ⟨_, _, done⟩ := Attempt.bind_eq_ok_iff.mp done
  exact done

theorem permit_of_unfailing (unfailing : cloud.failing = {}) (operation : String) :
    cloud.permit operation = .ok () := by
  rw [permit, unfailing]
  rfl

def newStack (settlesAtOnce : Bool) (createdAt : Instant) (spec : StackSpec) : Stack where
  name := spec.name
  status := if settlesAtOnce then .createComplete else .createInProgress
  dnsName := some (dnsName spec.name)
  targetGroup := some (targetGroup spec.name)
  createdAt := createdAt
  tags := spec.tags

theorem perform_create {spec : StackSpec}
    (granted : cloud.perform createdAt (.create spec) = .ok after) :
    cloud.provisioned.get? spec.name = none ∧
      after = { cloud with
        provisioned :=
          cloud.provisioned.insert spec.name (newStack cloud.settlesAtOnce createdAt spec)
        targets :=
          if cloud.targets.contains (targetGroup spec.name) then cloud.targets
          else cloud.targets.insert (targetGroup spec.name) {}
        applied := cloud.applied.insert spec.name spec } := by
  have granted := permit_bind_eq_ok granted
  by_cases present : cloud.provisioned.contains spec.name = true
  · rw [if_pos present] at granted
    cases granted
  · rw [if_neg present] at granted
    cases granted
    exact ⟨by simpa [Table.contains] using present, rfl⟩

theorem updateStack_eq_ok {spec : StackSpec} (granted : cloud.updateStack spec = .ok after) :
    ∃ stack, cloud.provisioned.get? spec.name = some stack ∧ stack.status.isInProgress = false ∧
      after = { cloud with
        provisioned := cloud.provisioned.insert spec.name
          { stack with
            status := if cloud.settlesAtOnce then .updateComplete else .updateInProgress
            tags := spec.tags }
        applied := cloud.applied.insert spec.name spec } := by
  have granted := permit_bind_eq_ok granted
  cases found : cloud.provisioned.get? spec.name with
  | none =>
      rw [found] at granted
      cases granted
  | some stack =>
      simp only [found] at granted
      by_cases busy : stack.status.isInProgress = true
      · rw [if_pos busy] at granted
        cases granted
      · rw [if_neg busy] at granted
        cases granted
        exact ⟨stack, rfl, Bool.eq_false_iff.mpr busy, rfl⟩

theorem perform_update {spec : StackSpec}
    (granted : cloud.perform createdAt (.update spec) = .ok after) :
    ∃ stack, cloud.provisioned.get? spec.name = some stack ∧
      after = { cloud with
        provisioned := cloud.provisioned.insert spec.name
          { stack with
            status := if cloud.settlesAtOnce then .updateComplete else .updateInProgress
            tags := spec.tags }
        applied := cloud.applied.insert spec.name spec } := by
  obtain ⟨stack, found, _, result⟩ := updateStack_eq_ok granted
  exact ⟨stack, found, result⟩

theorem perform_scheduleDeletion {name : StackName} {moment : Instant}
    (granted : cloud.perform createdAt (.scheduleDeletion name moment) = .ok after) :
    ∃ stack, cloud.provisioned.get? name = some stack ∧
      after = { cloud with
        provisioned := cloud.provisioned.insert name
          { stack with tags := Tags.setDeletionScheduledAt stack.tags (some moment) } } := by
  have granted := permit_bind_eq_ok granted
  cases found : cloud.provisioned.get? name with
  | none =>
      rw [found] at granted
      cases granted
  | some stack =>
      rw [found] at granted
      cases granted
      exact ⟨stack, rfl, rfl⟩

theorem perform_delete {name : StackName}
    (granted : cloud.perform createdAt (.delete name) = .ok after) :
    ∃ stack, cloud.provisioned.get? name = some stack ∧
      after = { cloud with
        provisioned := cloud.provisioned.erase name
        targets := stack.targetGroup.elim cloud.targets cloud.targets.erase
        applied := cloud.applied.erase name } := by
  have granted := permit_bind_eq_ok granted
  cases found : cloud.provisioned.get? name with
  | none =>
      rw [found] at granted
      cases granted
  | some stack =>
      rw [found] at granted
      cases granted
      exact ⟨stack, rfl, rfl⟩

theorem perform_fixed (granted : cloud.perform createdAt request = .ok after) :
    after.settlesAtOnce = cloud.settlesAtOnce ∧ after.failing = cloud.failing := by
  cases request with
  | create spec =>
      obtain ⟨_, rfl⟩ := perform_create granted
      exact ⟨rfl, rfl⟩
  | update spec =>
      obtain ⟨_, _, rfl⟩ := perform_update granted
      exact ⟨rfl, rfl⟩
  | scheduleDeletion name moment =>
      obtain ⟨_, _, rfl⟩ := perform_scheduleDeletion granted
      exact ⟨rfl, rfl⟩
  | delete name =>
      obtain ⟨_, _, rfl⟩ := perform_delete granted
      exact ⟨rfl, rfl⟩

theorem perform_settlesAtOnce (granted : cloud.perform createdAt request = .ok after) :
    after.settlesAtOnce = cloud.settlesAtOnce := (perform_fixed granted).1

theorem perform_failing (granted : cloud.perform createdAt request = .ok after) :
    after.failing = cloud.failing := (perform_fixed granted).2

theorem perform_elsewhere {name : StackName} (granted : cloud.perform createdAt request = .ok after)
    (differs : name ≠ request.name) :
    after.provisioned.get? name = cloud.provisioned.get? name := by
  cases request with
  | create spec =>
      obtain ⟨_, rfl⟩ := perform_create granted
      exact Table.get?_insert_of_ne _ differs
  | update spec =>
      obtain ⟨_, _, rfl⟩ := perform_update granted
      exact Table.get?_insert_of_ne _ differs
  | scheduleDeletion other moment =>
      obtain ⟨_, _, rfl⟩ := perform_scheduleDeletion granted
      exact Table.get?_insert_of_ne _ differs
  | delete other =>
      obtain ⟨_, _, rfl⟩ := perform_delete granted
      exact Table.get?_erase_of_ne differs

/-- Only a deletion takes the stack away; any other request leaves it with its own deletion time. -/
theorem perform_own (granted : cloud.perform createdAt request = .ok after) :
    (request = .delete request.name ∧ after.provisioned.get? request.name = none) ∨
      ∃ stack, after.provisioned.get? request.name = some stack ∧
        stack.tags.get? Tag.deletionScheduled = request.mark := by
  cases request with
  | create spec =>
      obtain ⟨_, rfl⟩ := perform_create granted
      exact .inr ⟨_, Table.get?_insert_self .., rfl⟩
  | update spec =>
      obtain ⟨_, _, rfl⟩ := perform_update granted
      exact .inr ⟨_, Table.get?_insert_self .., rfl⟩
  | scheduleDeletion name moment =>
      obtain ⟨_, _, rfl⟩ := perform_scheduleDeletion granted
      exact .inr ⟨_, Table.get?_insert_self .., Table.get?_insert_self ..⟩
  | delete name =>
      obtain ⟨_, _, rfl⟩ := perform_delete granted
      exact .inl ⟨rfl, Table.get?_erase_self ..⟩

theorem perform_mark (granted : cloud.perform createdAt request = .ok after) :
    after.mark request.name = request.mark := by
  rcases perform_own granted with ⟨deletion, gone⟩ | ⟨stack, found, marked⟩
  · rw [mark, gone, deletion]
    rfl
  · rw [mark, found]
    exact marked

/-- What new stacks have, and what stacks keep when they are updated or their deletion is scheduled,
all stacks have after a request. -/
theorem perform_pointwise {Good : StackName → Stack → Prop}
    (good : ∀ name stack, cloud.provisioned.get? name = some stack → Good name stack)
    (created : ∀ spec, request = .create spec →
      Good spec.name (newStack cloud.settlesAtOnce createdAt spec))
    (updated : ∀ spec stack, request = .update spec → Good spec.name stack →
      Good spec.name { stack with
        status := if cloud.settlesAtOnce then .updateComplete else .updateInProgress
        tags := spec.tags })
    (scheduled : ∀ name moment stack, request = .scheduleDeletion name moment → Good name stack →
      Good name { stack with tags := Tags.setDeletionScheduledAt stack.tags (some moment) })
    (granted : cloud.perform createdAt request = .ok after) :
    ∀ name stack, after.provisioned.get? name = some stack → Good name stack := by
  intro name stack found
  by_cases same : name = request.name
  · subst same
    cases request with
    | create spec =>
        obtain ⟨_, rfl⟩ := perform_create granted
        obtain rfl := Option.some.inj ((Table.get?_insert_self ..).symm.trans found)
        exact created spec rfl
    | update spec =>
        obtain ⟨old, known, rfl⟩ := perform_update granted
        obtain rfl := Option.some.inj ((Table.get?_insert_self ..).symm.trans found)
        exact updated spec old rfl (good spec.name old known)
    | scheduleDeletion name moment =>
        obtain ⟨old, known, rfl⟩ := perform_scheduleDeletion granted
        obtain rfl := Option.some.inj ((Table.get?_insert_self ..).symm.trans found)
        exact scheduled name moment old rfl (good name old known)
    | delete name =>
        obtain ⟨_, _, rfl⟩ := perform_delete granted
        cases (Table.get?_erase_self ..).symm.trans found
  · exact good name stack (perform_elsewhere granted same ▸ found)

theorem perform_named (named : cloud.Named)
    (granted : cloud.perform createdAt request = .ok after) : after.Named :=
  perform_pointwise named (fun _ _ => rfl) (fun _ _ _ called => called)
    (fun _ _ _ _ called => called) granted

theorem perform_vanished {name : StackName} {stack : Stack}
    (granted : cloud.perform createdAt request = .ok after)
    (present : cloud.provisioned.get? name = some stack)
    (absent : after.provisioned.get? name = none) : request = .delete name := by
  by_cases same : name = request.name
  · subst same
    rcases perform_own granted with ⟨deletion, _⟩ | ⟨other, kept, _⟩
    · exact deletion
    · rw [absent] at kept
      cases kept
  · rw [perform_elsewhere granted same, present] at absent
    cases absent

theorem perform_absent {name : StackName} (granted : cloud.perform createdAt request = .ok after)
    (absent : cloud.provisioned.get? name = none)
    (uncreated : ∀ spec, request = .create spec → spec.name ≠ name) :
    after.provisioned.get? name = none := by
  by_cases same : name = request.name
  · subst same
    cases request with
    | create spec => exact absurd rfl (uncreated spec rfl)
    | update spec =>
        obtain ⟨stack, known, _⟩ := perform_update granted
        exact nomatch known.symm.trans absent
    | scheduleDeletion name moment =>
        obtain ⟨stack, known, _⟩ := perform_scheduleDeletion granted
        exact nomatch known.symm.trans absent
    | delete name =>
        obtain ⟨_, _, rfl⟩ := perform_delete granted
        exact Table.get?_erase_self ..
  · rw [perform_elsewhere granted same, absent]

theorem mem_listStacks {cluster : String} {listed : List Stack} {stack : Stack}
    (listing : cloud.listStacks cluster = .ok listed) (member : stack ∈ listed) :
    ∃ name, cloud.provisioned.get? name = some stack := by
  have listing := permit_bind_eq_ok listing
  cases listing
  exact Table.mem_values_iff.mp (List.mem_filter.mp member |>.1)

theorem listStacks_names_nodup {cluster : String} {listed : List Stack} (named : cloud.Named)
    (listing : cloud.listStacks cluster = .ok listed) : (listed.map Stack.name).Nodup := by
  have keyed : cloud.provisioned.values.map Stack.name = cloud.provisioned.keys := by
    rw [Table.values, Table.keys, List.map_map]
    apply List.map_congr_left
    intro entry member
    exact named entry.1 entry.2 (Table.mem_entries.mp member)
  have listing := permit_bind_eq_ok listing
  cases listing
  refine ((List.filter_sublist ..).map Stack.name).nodup ?_
  rw [keyed]
  exact Table.keys_nodup _

inductive Performs (createdAt : Instant) (start : Cloud) : List StackRequest → Cloud → Prop
  | none : Performs createdAt start [] start
  | next {requests : List StackRequest} {cloud after : Cloud} {request : StackRequest} :
      Performs createdAt start requests cloud → cloud.perform createdAt request = .ok after →
        Performs createdAt start (requests ++ [request]) after

variable {start : Cloud} {requests : List StackRequest}

theorem performs_named (named : start.Named) (performs : Performs createdAt start requests cloud) :
    cloud.Named := by
  induction performs with
  | none => exact named
  | next _ granted ih => exact perform_named ih granted

theorem performs_vanished {name : StackName} {stack : Stack}
    (performs : Performs createdAt start requests cloud)
    (present : start.provisioned.get? name = some stack)
    (absent : cloud.provisioned.get? name = Option.none) : .delete name ∈ requests := by
  induction performs with
  | none =>
      rw [present] at absent
      cases absent
  | @next requests cloud after request _ granted ih =>
      cases kept : cloud.provisioned.get? name with
      | none => exact List.mem_append_left _ (ih kept)
      | some stack => simp [perform_vanished granted kept absent]

/-- A deletion time was set by one of the requests, or stood at the start and no request has
updated its stack. -/
theorem performs_mark {name : StackName} {value : String}
    (performs : Performs createdAt start requests cloud)
    (plain : ∀ request ∈ requests, ∀ spec, request = .create spec ∨ request = .update spec →
      spec.tags.get? Tag.deletionScheduled = Option.none)
    (marked : cloud.mark name = some value) :
    (∃ moment, .scheduleDeletion name moment ∈ requests ∧ moment.secondText = value) ∨
      (start.mark name = some value ∧ ∀ spec, .update spec ∈ requests → spec.name ≠ name) := by
  induction performs with
  | none => exact .inr ⟨marked, nofun⟩
  | @next requests cloud after request _ granted ih =>
      by_cases same : name = request.name
      · -- The last request decides, and of those that leave a mark there is one kind.
        subst same
        rw [perform_mark granted] at marked
        cases request with
        | create spec =>
            have blank := plain (.create spec) (by simp) spec (.inl rfl)
            rw [StackRequest.mark, blank] at marked
            cases marked
        | update spec =>
            have blank := plain (.update spec) (by simp) spec (.inr rfl)
            rw [StackRequest.mark, blank] at marked
            cases marked
        | scheduleDeletion name moment =>
            exact .inl ⟨moment, by simp [StackRequest.name], Option.some.inj marked⟩
        | delete name => cases marked
      · rw [mark, perform_elsewhere granted same] at marked
        have earlier : ∀ request ∈ requests, ∀ spec, request = .create spec ∨ request = .update spec →
            spec.tags.get? Tag.deletionScheduled = Option.none :=
          fun request member => plain request (List.mem_append_left _ member)
        rcases ih earlier marked with ⟨moment, member, same⟩ | ⟨old, untouched⟩
        · exact .inl ⟨moment, List.mem_append_left _ member, same⟩
        · refine .inr ⟨old, fun spec member => ?_⟩
          rcases List.mem_append.mp member with before | last
          · exact untouched spec before
          · rw [← List.mem_singleton.mp last] at same
            exact Ne.symm same

structure Continues (earlier later : Stack) : Prop where
  name : later.name = earlier.name
  dnsName : later.dnsName = earlier.dnsName
  targetGroup : later.targetGroup = earlier.targetGroup
  createdAt : later.createdAt = earlier.createdAt

def Resembles (first second : Tags) : Prop :=
  ∀ key, key ≠ Tag.deletionScheduled → first.get? key = second.get? key

/-- A stack that is not deleted continues, with the tags of an update or those that it had. -/
theorem perform_kept {name : StackName} {stack : Stack}
    (granted : cloud.perform createdAt request = .ok after)
    (present : cloud.provisioned.get? name = some stack) (kept : request ≠ .delete name) :
    ∃ later, after.provisioned.get? name = some later ∧ Continues stack later ∧
      ((∃ spec, request = .update spec ∧ spec.name = name ∧ Resembles later.tags spec.tags) ∨
        (∀ spec, request = .update spec → spec.name ≠ name) ∧ Resembles later.tags stack.tags) := by
  by_cases same : name = request.name
  · subst same
    cases request with
    | create spec =>
        obtain ⟨absent, _⟩ := perform_create granted
        exact nomatch present.symm.trans absent
    | update spec =>
        obtain ⟨old, known, rfl⟩ := perform_update granted
        obtain rfl : old = stack := Option.some.inj (known.symm.trans present)
        exact ⟨_, Table.get?_insert_self .., ⟨rfl, rfl, rfl, rfl⟩, .inl ⟨spec, rfl, rfl, fun _ _ => rfl⟩⟩
    | scheduleDeletion name moment =>
        obtain ⟨old, known, rfl⟩ := perform_scheduleDeletion granted
        obtain rfl : old = stack := Option.some.inj (known.symm.trans present)
        refine ⟨_, Table.get?_insert_self .., ⟨rfl, rfl, rfl, rfl⟩, .inr ⟨nofun, fun key other => ?_⟩⟩
        exact Table.get?_insert_of_ne _ other
    | delete name => exact absurd rfl kept
  · refine ⟨stack, (perform_elsewhere granted same).trans present, ⟨rfl, rfl, rfl, rfl⟩,
      .inr ⟨?_, fun _ _ => rfl⟩⟩
    rintro spec rfl
    exact Ne.symm same

theorem performs_kept {name : StackName} {stack : Stack}
    (performs : Performs createdAt start requests cloud)
    (present : start.provisioned.get? name = some stack) (kept : .delete name ∉ requests) :
    ∃ later, cloud.provisioned.get? name = some later ∧ Continues stack later ∧
      ((∃ spec, .update spec ∈ requests ∧ spec.name = name ∧ Resembles later.tags spec.tags) ∨
        (∀ spec, .update spec ∈ requests → spec.name ≠ name) ∧
          Resembles later.tags stack.tags) := by
  induction performs with
  | none => exact ⟨stack, present, ⟨rfl, rfl, rfl, rfl⟩, .inr ⟨nofun, fun _ _ => rfl⟩⟩
  | next _ granted ih =>
      rw [List.mem_append, not_or, List.mem_singleton] at kept
      obtain ⟨middle, found, continues, before⟩ := ih kept.1
      obtain ⟨later, found, continues', last⟩ := perform_kept granted found (Ne.symm kept.2)
      refine ⟨later, found, ⟨continues'.name.trans continues.name,
        continues'.dnsName.trans continues.dnsName,
        continues'.targetGroup.trans continues.targetGroup,
        continues'.createdAt.trans continues.createdAt⟩, ?_⟩
      -- The last update of the stack has written its tags, if there was any.
      rcases last with ⟨spec, rfl, called, tagged⟩ | ⟨untouched, tagged⟩
      · exact .inl ⟨spec, by simp, called, tagged⟩
      · rcases before with ⟨spec, member, called, tagged'⟩ | ⟨untouched', tagged'⟩
        · exact .inl ⟨spec, List.mem_append_left _ member, called,
            fun key other => (tagged key other).trans (tagged' key other)⟩
        · refine .inr ⟨fun spec member => ?_, fun key other =>
            (tagged key other).trans (tagged' key other)⟩
          rcases List.mem_append.mp member with early | final
          · exact untouched' spec early
          · exact untouched spec (List.mem_singleton.mp final).symm

end Cloud

end IngressControl
