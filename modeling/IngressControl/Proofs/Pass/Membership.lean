import Mathlib.Algebra.GroupWithZero.Nat
import IngressControl.Proofs.Pass.Registration
/-!
What belongs to the cluster is registered, and nothing else.

Where no operation fails, a group that is brought in line holds exactly the instances of the cluster
and others are not touched; what is put in and taken out is counted, and once all groups are in line
nothing is left to do. Where operations do fail, a group still loses no instance of the cluster and
gets nothing else.
-/

namespace IngressControl

namespace Cloud

variable {cloud : Cloud}

def members (cloud : Cloud) (cluster : String) : KeySet InstanceId :=
  KeySet.ofList ((cloud.instances.get? cluster).getD [])

theorem listInstances_of_unfailing (unfailing : cloud.failing = {}) (cluster : String) :
    cloud.listInstances cluster = .ok ((cloud.instances.get? cluster).getD []) := by
  rw [listInstances, permit_of_unfailing unfailing]
  rfl

theorem listTargets_of_unfailing (unfailing : cloud.failing = {}) (group : String) :
    cloud.listTargets group = .ok (cloud.registered group).keys := by
  rw [listTargets, permit_of_unfailing unfailing]
  rfl

end Cloud

namespace TargetWork

variable {dryRun : Bool} {cluster group wanted : String} {groups : List String}
  {machine : InstanceId} {instances members : KeySet InstanceId} {work middle after : TargetWork}
  {listed : List Stack} {added added' removed removed' : Nat}

theorem syncGroup_keeps (belongs : instances.contains machine = true)
    (present : (work.cloud.registered wanted).contains machine = true) :
    ((syncGroup dryRun instances work group).cloud.registered wanted).contains machine = true := by
  refine syncGroup_induction (motive := fun current : TargetWork =>
    (current.cloud.registered wanted).contains machine = true) (fun _ _ _ kept => kept) ?_ ?_ present
  · exact fun _ _ _ _ done kept => register_keeps done kept
  · intro _ _ stale foreign done kept
    refine deregister_keeps (fun member => ?_) done kept
    rw [foreign machine member] at belongs
    cases belongs

theorem sync_keeps (belongs : (work.cloud.members cluster).contains machine = true)
    (present : (work.cloud.registered wanted).contains machine = true) :
    ((sync cluster dryRun work listed).cloud.registered wanted).contains machine = true := by
  refine sync_induction (motive := fun current : TargetWork =>
    (current.cloud.registered wanted).contains machine = true) (fun _ _ => present) ?_ present
  intro instances known current group _ kept
  cases Cloud.permit_bind_eq_ok known
  exact syncGroup_keeps belongs kept

theorem aligned_members (instances members : KeySet InstanceId) :
    (members.addAll (instances.without members)).filter
      (fun member _ => !(members.without instances).contains member) = instances := by
  refine KeySet.eq_of_contains fun machine => ?_
  rw [Table.contains_filter, KeySet.contains_addAll, KeySet.mem_without]
  cases here : members.contains machine <;> cases there : instances.contains machine <;>
    simp [KeySet.mem_without, here, there]

/-- The group holds the members now. So many were put in and so many taken out, and no other group
was touched. -/
structure Turns (group : String) (members : KeySet InstanceId) (added removed : Nat)
    (work after : TargetWork) : Prop where
  beside : OnlyTargets work.cloud after.cloud
  registered : after.cloud.registered group = members
  others : ∀ other, other ≠ group →
    after.cloud.targets.get? other = work.cloud.targets.get? other
  changes : after.changes =
    ⟨work.changes.registered + added, work.changes.deregistered + removed⟩
  problems : after.problems = work.problems

theorem turns_trans {first last : KeySet InstanceId}
    (left : Turns group first added removed work middle)
    (right : Turns group last added' removed' middle after) :
    Turns group last (added + added') (removed + removed') work after where
  beside := onlyTargets_trans left.beside right.beside
  registered := right.registered
  others other differs := (right.others other differs).trans (left.others other differs)
  changes := by rw [right.changes, left.changes, Nat.add_assoc, Nat.add_assoc]
  problems := right.problems.trans left.problems

theorem unfailing_of_onlyTargets {before after : Cloud} (unfailing : before.failing = {})
    (beside : OnlyTargets before after) : after.failing = {} := by
  obtain ⟨_, rfl⟩ := beside
  exact unfailing

theorem register_turns (unfailing : work.cloud.failing = {}) (group : String)
    (missing : List InstanceId) : ∃ after, work.register false group missing = .ok after ∧
      Turns group ((work.cloud.registered group).addAll missing) missing.length 0 work after := by
  cases missing with
  | nil => exact ⟨work, rfl, ⟨_, rfl⟩, rfl, fun _ _ => rfl, rfl, rfl⟩
  | cons machine rest =>
      rw [register, Cloud.registerTargets, Cloud.permit_of_unfailing unfailing]
      refine ⟨_, rfl, ⟨_, rfl⟩, ?_, fun other differs => ?_, rfl, rfl⟩
      · exact (Cloud.registered_insert ..).trans (if_pos rfl)
      · exact Table.get?_insert_of_ne _ differs

theorem deregister_turns (unfailing : work.cloud.failing = {}) (group : String)
    (stale : List InstanceId) : ∃ after, work.deregister false group stale = .ok after ∧
      Turns group ((work.cloud.registered group).filter fun member _ => !stale.contains member)
        0 stale.length work after := by
  cases stale with
  | nil =>
      refine ⟨work, rfl, ⟨_, rfl⟩, ?_, fun _ _ => rfl, rfl, rfl⟩
      refine KeySet.eq_of_contains fun machine => ?_
      rw [Table.contains_filter]
      exact (and_iff_left rfl).symm
  | cons machine rest =>
      rw [deregister, Cloud.deregisterTargets, Cloud.permit_of_unfailing unfailing]
      refine ⟨_, rfl, ⟨_, rfl⟩, ?_, fun other differs => ?_, rfl, rfl⟩
      · exact (Cloud.registered_modify ..).trans (if_pos rfl)
      · exact Table.get?_modify_of_ne _ differs

theorem syncGroup_turns (unfailing : work.cloud.failing = {}) (instances : KeySet InstanceId)
    (group : String) :
    Turns group instances (instances.without (work.cloud.registered group)).length
      ((work.cloud.registered group).without instances).length work
      (syncGroup false instances work group) := by
  obtain ⟨middle, put, first⟩ := register_turns unfailing group
    (instances.without (work.cloud.registered group))
  obtain ⟨after, taken, second⟩ := deregister_turns
    (unfailing_of_onlyTargets unfailing first.beside) group
    ((work.cloud.registered group).without instances)
  have same : syncGroup false instances work group = after := by
    rw [syncGroup, Cloud.listTargets_of_unfailing unfailing]
    simp only [KeySet.ofList_keys, put, taken]
  rw [first.registered, aligned_members] at second
  rw [same]
  simpa only [Nat.add_zero, Nat.zero_add] using turns_trans first second

/-- All the groups hold the instances. If none of them comes twice, the counts have grown by what
they lacked and by what did not belong. -/
structure Aligns (instances : KeySet InstanceId) (groups : List String) (work after : TargetWork) :
    Prop where
  beside : OnlyTargets work.cloud after.cloud
  exact : ∀ group ∈ groups, after.cloud.registered group = instances
  others : ∀ group, group ∉ groups →
    after.cloud.targets.get? group = work.cloud.targets.get? group
  changes : groups.Nodup → after.changes =
    ⟨work.changes.registered
        + (groups.map fun group => (instances.without (work.cloud.registered group)).length).sum,
      work.changes.deregistered
        + (groups.map fun group => ((work.cloud.registered group).without instances).length).sum⟩
  problems : after.problems = work.problems

theorem aligns_cons (turns : Turns group instances
      (instances.without (work.cloud.registered group)).length
      ((work.cloud.registered group).without instances).length work middle)
    (aligns : Aligns instances groups middle after) :
    Aligns instances (group :: groups) work after where
  beside := onlyTargets_trans turns.beside aligns.beside
  exact := by
    intro wanted member
    -- A group that comes again is brought in line again.
    by_cases later : wanted ∈ groups
    · exact aligns.exact wanted later
    · obtain rfl : wanted = group := (List.mem_cons.mp member).resolve_right later
      rw [Cloud.registered, aligns.others wanted later]
      exact turns.registered
  others := by
    intro other foreign
    obtain ⟨differs, later⟩ := List.ne_and_not_mem_of_not_mem_cons foreign
    exact (aligns.others other later).trans (turns.others other differs)
  changes := by
    intro distinct
    obtain ⟨once, distinct⟩ := List.nodup_cons.mp distinct
    have kept (other : String) (member : other ∈ groups) :
        middle.cloud.registered other = work.cloud.registered other := by
      have differs : other ≠ group := by
        rintro rfl
        exact once member
      rw [Cloud.registered, turns.others other differs]
      rfl
    have lacked : (groups.map fun other => (instances.without (middle.cloud.registered other)).length)
        = groups.map fun other => (instances.without (work.cloud.registered other)).length :=
      List.map_congr_left fun other member => by rw [kept other member]
    have spare : (groups.map fun other => ((middle.cloud.registered other).without instances).length)
        = groups.map fun other => ((work.cloud.registered other).without instances).length :=
      List.map_congr_left fun other member => by rw [kept other member]
    rw [aligns.changes distinct, lacked, spare, turns.changes, List.map_cons, List.map_cons,
      List.sum_cons, List.sum_cons, Nat.add_assoc, Nat.add_assoc]
  problems := aligns.problems.trans turns.problems

theorem foldl_aligns (unfailing : work.cloud.failing = {}) (instances : KeySet InstanceId)
    (groups : List String) :
    Aligns instances groups work (groups.foldl (syncGroup false instances) work) := by
  induction groups generalizing work with
  | nil => exact ⟨⟨_, rfl⟩, nofun, fun _ _ => rfl, fun _ => rfl, rfl⟩
  | cons group rest ih =>
      have turns := syncGroup_turns unfailing instances group
      exact aligns_cons turns (ih (unfailing_of_onlyTargets unfailing turns.beside))

theorem sync_aligns (unfailing : work.cloud.failing = {}) (cluster : String) (listed : List Stack) :
    Aligns (work.cloud.members cluster) (routableGroups listed) work
      (sync cluster false work listed) := by
  have aligns := foldl_aligns unfailing (work.cloud.members cluster) (routableGroups listed)
  rw [sync]
  split
  · rename_i idle
    rw [List.isEmpty_iff.mp idle] at aligns ⊢
    exact aligns
  · rw [Cloud.listInstances_of_unfailing unfailing]
    exact aligns

theorem syncGroup_settled (unfailing : work.cloud.failing = {})
    (settled : work.cloud.registered group = instances) :
    syncGroup dryRun instances work group = work := by
  have nothing : instances.without instances = [] :=
    List.eq_nil_iff_forall_not_mem.mpr fun machine member => by
      obtain ⟨present, absent⟩ := KeySet.mem_without.mp member
      rw [present] at absent
      cases absent
  rw [syncGroup, Cloud.listTargets_of_unfailing unfailing]
  simp only [KeySet.ofList_keys, settled, nothing]
  rfl

theorem sync_settled (unfailing : work.cloud.failing = {})
    (settled : ∀ group ∈ routableGroups listed,
      work.cloud.registered group = work.cloud.members cluster) :
    sync cluster dryRun work listed = work := by
  refine sync_induction (motive := (· = work)) ?_ ?_ rfl
  · intro failure denied
    rw [Cloud.listInstances_of_unfailing unfailing] at denied
    cases denied
  · rintro instances known _ group routable rfl
    rw [Cloud.listInstances_of_unfailing unfailing] at known
    cases known
    exact syncGroup_settled unfailing (settled group routable)

/-- Target groups are brought in line exactly, once and for all. Whatever fails, none of them loses an
instance of the cluster or gets one that is not of the cluster. -/
theorem sync_exact (cluster : String) (work : TargetWork) (listed : List Stack) :
    (work.cloud.failing = {} →
      Aligns (work.cloud.members cluster) (routableGroups listed) work
        (sync cluster false work listed) ∧
      ∀ again : TargetWork, again.cloud = (sync cluster false work listed).cloud →
        sync cluster false again listed = again) ∧
    ∀ group machine,
      ((work.cloud.members cluster).contains machine = true →
        (work.cloud.registered group).contains machine = true →
        ((sync cluster false work listed).cloud.registered group).contains machine = true) ∧
      (((sync cluster false work listed).cloud.registered group).contains machine = true →
        (work.cloud.registered group).contains machine = true ∨
        (work.cloud.members cluster).contains machine = true) := by
  refine ⟨fun unfailing => ?_, fun group machine => ⟨sync_keeps, fun registered => ?_⟩⟩
  · have aligns := sync_aligns unfailing cluster listed
    refine ⟨aligns, fun again same => ?_⟩
    refine sync_settled ?_ fun group routable => ?_
    · rw [same]
      exact unfailing_of_onlyTargets unfailing aligns.beside
    · obtain ⟨_, beside⟩ := aligns.beside
      rw [same, aligns.exact group routable, beside]
      rfl
  · exact (sync_registered registered).imp_right fun ⟨_, present⟩ =>
      KeySet.contains_ofList.mpr present

def fleet : List Stack :=
  [("a", .createComplete), ("b", .createInProgress), ("c", .updateComplete)].map fun (name, status) =>
    { name, status, dnsName := none, targetGroup := some (name ++ "-tg"), createdAt := ⟨0, 0⟩,
      tags := Tags.ownedBy "shop" }

def drifted : Cloud where
  instances := Table.ofList [("shop", ["i-1", "i-2"])]
  targets := Table.ofList
    [("a-tg", KeySet.ofList ["i-2", "i-old"]), ("b-tg", KeySet.ofList ["i-old"])]

theorem fleet_exact :
    drifted.failing = {} ∧ routableGroups fleet = ["a-tg", "c-tg"] ∧
      (sync "shop" false { cloud := drifted } fleet).changes = ⟨3, 1⟩ ∧
      Aligns (drifted.members "shop") (routableGroups fleet) { cloud := drifted }
        (sync "shop" false { cloud := drifted } fleet) ∧
      sync "shop" false (sync "shop" false { cloud := drifted } fleet) fleet
        = sync "shop" false { cloud := drifted } fleet := by
  obtain ⟨aligns, settled⟩ := (sync_exact "shop" { cloud := drifted } fleet).1 rfl
  exact ⟨rfl, by decide +kernel, by decide +kernel, aligns, settled _ rfl⟩

end TargetWork

end IngressControl
