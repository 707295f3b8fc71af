import IngressControl.Proofs.Pairs
import IngressControl.Proofs.Pass.Bookkeeping
import IngressControl.Proofs.Pass.Delivery
/-!
The work on all stacks while the cloud grants whatever it likes.

What is requested for one load balancer depends on its own plan and on how many new stacks were
asked for before. Neither changes with what the cloud has granted, so two overhauls of the same load
balancers make the same requests; and each of them accounts for all it has dealt with.
-/

namespace IngressControl

open Attempt

namespace StackWork

variable {policy : StackPolicy} {now : Instant} {work work' reconciled cleaned : StackWork}

/-- The work on the wanted load balancers and then that on the orphans, each with its own
problems. -/
def overhaul (policy : StackPolicy) (now : Instant) (weather : StackWork → Cloud)
    (work : StackWork) (descriptors : List Descriptor) (orphans : List ObservedStack) :
    Except (TimeOverflow × StackWork) (StackWork × StackWork) := do
  let reconciled ← each (amid weather (reconcile policy now)) work descriptors
  let cleaned ← each (amid weather (cleanUp policy now)) { reconciled with problems := [] } orphans
  return (reconciled, cleaned)

/-- Where only the work itself changes the cloud, an overhaul is the work of a pass. -/
theorem overhaul_cloud (policy : StackPolicy) (now : Instant) (work : StackWork)
    (descriptors : List Descriptor) (orphans : List ObservedStack) :
    overhaul policy now StackWork.cloud work descriptors orphans = (do
      let reconciled ← reconcileAll policy now work descriptors
      let cleaned ← cleanUpAll policy now { reconciled with problems := [] } orphans
      return (reconciled, cleaned)) := rfl

structure SameCalls (first second : StackWork) : Prop where
  requests : first.requests = second.requests
  created : first.created = second.created

theorem apply_sameCalls (same : SameCalls work work') (scope : String)
    (count : StackChanges → StackChanges) (move : Move) :
    SameCalls (work.apply policy scope count move) (work'.apply policy scope count move) := by
  have noted (request : StackRequest) : SameCalls (work.note request) (work'.note request) := by
    cases request <;> exact ⟨by simp [note, same.requests], by simp [note, same.created]⟩
  have issued (work : StackWork) (request : StackRequest) :
      SameCalls (work.issue policy scope count request) (work.note request) := by
    rw [issue]
    cases (work.note request).cloud.perform policy.createdAt request <;> exact ⟨rfl, rfl⟩
  cases move with
  | nothing => exact ⟨same.requests, same.created⟩
  | refuse failure => exact ⟨same.requests, same.created⟩
  | request request =>
      rw [apply, apply]
      cases policy.dryRun with
      | true => exact ⟨same.requests, same.created⟩
      | false =>
          have first := issued work request
          have second := issued work' request
          exact ⟨first.requests.trans ((noted request).requests.trans second.requests.symm),
            first.created.trans ((noted request).created.trans second.created.symm)⟩

theorem reconcile_sameCalls (same : SameCalls work work') (descriptor : Descriptor) :
    Alongside Eq SameCalls (reconcile policy now work descriptor)
      (reconcile policy now work' descriptor) := by
  refine alongside_bind (alongside_refl (descriptor.plan now policy.grace)) ?_
  rintro action _ rfl
  rw [same.created]
  refine alongside_bind (alongside_refl (descriptor.move policy _ now action)) ?_
  rintro move _ rfl
  exact .ok (apply_sameCalls same _ _ move)

theorem cleanUp_sameCalls (same : SameCalls work work') (orphan : ObservedStack) :
    Alongside Eq SameCalls (cleanUp policy now work orphan) (cleanUp policy now work' orphan) := by
  refine alongside_bind (alongside_refl (orphan.planOrphan now policy.grace)) ?_
  rintro action _ rfl
  exact .ok (apply_sameCalls same _ _ (orphan.move action))

def SameStop (stop stop' : TimeOverflow × StackWork) : Prop :=
  stop.1 = stop'.1 ∧ SameCalls stop.2 stop'.2

theorem each_sameCalls {α : Type} {step : StackWork → α → Except TimeOverflow StackWork}
    (kept : ∀ work work' item, SameCalls work work' →
      Alongside Eq SameCalls (step work item) (step work' item))
    (weather weather' : StackWork → Cloud) (same : SameCalls work work') (items : List α) :
    Alongside SameStop SameCalls (each (amid weather step) work items)
      (each (amid weather' step) work' items) := by
  have stepwise (item : α) (_ : List α) (work work' : StackWork) (same : SameCalls work work') :
      Alongside Eq SameCalls (amid weather step work item) (amid weather' step work' item) :=
    kept _ _ item ⟨same.requests, same.created⟩
  have related := each_alongside (fun _ => SameCalls) stepwise items same
  refine alongside_imp ?_ (fun _ _ calls => calls) related
  rintro stop stop' ⟨reason, _, calls⟩
  exact ⟨reason, calls⟩

/-- Every wanted load balancer was dealt with, as the work stood and in the cloud that was in force:
counted once if that cloud answered well, or reported once with its failure. -/
structure Attends (policy : StackPolicy) (now : Instant) (weather : StackWork → Cloud)
    (descriptors : List Descriptor) (work after : StackWork) : Prop where
  dealings : ∃ dealings, List.Forall₂ (Descriptor.Dealt policy now) descriptors dealings ∧
    dealings.map Dealing.work
      = (fronts (amid weather (reconcile policy now)) work descriptors).map (under weather) ∧
    Books policy StackChanges.countDesired work dealings after
  counted : after.changes.wanted + after.problems.length
    = work.changes.wanted + work.problems.length + descriptors.length
  unwanted : after.changes.unwanted = work.changes.unwanted

/-- Every orphan was dealt with likewise; one that is kept as planned is not counted. -/
structure Disposes (policy : StackPolicy) (now : Instant) (weather : StackWork → Cloud)
    (orphans : List ObservedStack) (work after : StackWork) : Prop where
  dealings : ∃ dealings, List.Forall₂ (ObservedStack.Dealt policy now) orphans dealings ∧
    dealings.map Dealing.work
      = (fronts (amid weather (cleanUp policy now)) work orphans).map (under weather) ∧
    Books policy StackChanges.countOrphan work dealings after
  counted : after.changes.unwanted
      + (orphans.countP fun orphan => orphan.planOrphan now policy.grace = .ok .keep)
      + after.problems.length
    = work.changes.unwanted + work.problems.length + orphans.length
  wanted : after.changes.wanted = work.changes.wanted

theorem wanted_of_books {descriptors : List Descriptor} {dealings : List (Dealing DesiredAction)}
    (dealt : List.Forall₂ (Descriptor.Dealt policy now) descriptors dealings)
    (books : Books policy StackChanges.countDesired work dealings reconciled) :
    reconciled.changes.wanted + reconciled.problems.length
      = work.changes.wanted + work.problems.length + descriptors.length := by
  have counted := counted_of_books StackChanges.wanted (fun _ => false) books
    (fun dealing member succeeded changes => by
      obtain ⟨_, _, dealt⟩ := Pairs.exists_left dealt member
      rw [StackChanges.wanted_countDesired changes (dealt.sane succeeded)]
      rfl)
    (fun dealing _ idle => absurd idle Bool.false_ne_true)
  simpa [dealt.length_eq] using counted

theorem unwanted_of_books {orphans : List ObservedStack} {dealings : List (Dealing OrphanAction)}
    (dealt : List.Forall₂ (ObservedStack.Dealt policy now) orphans dealings)
    (books : Books policy StackChanges.countOrphan work dealings cleaned) :
    cleaned.changes.unwanted
        + (orphans.countP fun orphan => orphan.planOrphan now policy.grace = .ok .keep)
        + cleaned.problems.length
      = work.changes.unwanted + work.problems.length + orphans.length := by
  have counted := counted_of_books StackChanges.unwanted (fun action => action = .keep) books
    (fun dealing _ _ changes => by
      by_cases idle : dealing.action = .keep
      · rw [idle]
        rfl
      · rw [StackChanges.unwanted_countOrphan changes idle]
        simp [idle])
    (fun dealing member idle => by
      obtain ⟨_, _, dealt⟩ := Pairs.exists_left dealt member
      exact dealt.succeeded_of_keep (of_decide_eq_true idle))
  have kept : (orphans.countP fun orphan => orphan.planOrphan now policy.grace = .ok .keep)
      = dealings.countP fun dealing => dealing.action = .keep :=
    Pairs.countP_congr (fun orphan dealing dealt => by simp [dealt.planned]) dealt
  rw [kept, dealt.length_eq]
  exact counted

theorem attends_of_each (weather : StackWork → Cloud) {descriptors : List Descriptor}
    (done : each (amid weather (reconcile policy now)) work descriptors = .ok reconciled) :
    Attends policy now weather descriptors work reconciled := by
  obtain ⟨handled, dealings, _, dealt, stood, books, whole⟩ := each_books weather
    (reconcile policy now) (fun _ _ _ => reconcile_books) work descriptors
  obtain rfl := whole reconciled done
  rw [done] at books
  exact ⟨⟨dealings, dealt, stood, books⟩, wanted_of_books dealt books,
    kept_of_books StackChanges.unwanted_countDesired books⟩

theorem disposes_of_each (weather : StackWork → Cloud) {orphans : List ObservedStack}
    (done : each (amid weather (cleanUp policy now)) work orphans = .ok cleaned) :
    Disposes policy now weather orphans work cleaned := by
  obtain ⟨handled, dealings, _, dealt, stood, books, whole⟩ := each_books weather
    (cleanUp policy now) (fun _ _ _ => cleanUp_books) work orphans
  obtain rfl := whole cleaned done
  rw [done] at books
  exact ⟨⟨dealings, dealt, stood, books⟩, unwanted_of_books dealt books,
    kept_of_books StackChanges.wanted_countOrphan books⟩

theorem overhaul_sameCalls (same : SameCalls work work') (weather weather' : StackWork → Cloud)
    (descriptors : List Descriptor) (orphans : List ObservedStack) :
    Alongside SameStop
      (fun works works' => SameCalls works.1 works'.1 ∧ SameCalls works.2 works'.2)
      (overhaul policy now weather work descriptors orphans)
      (overhaul policy now weather' work' descriptors orphans) := by
  have wanted : Alongside SameStop SameCalls
      (each (amid weather (reconcile policy now)) work descriptors)
      (each (amid weather' (reconcile policy now)) work' descriptors) :=
    each_sameCalls (fun _ _ descriptor same => reconcile_sameCalls same descriptor) weather weather'
      same descriptors
  refine alongside_bind wanted ?_
  intro reconciled reconciled' calls
  have started : SameCalls { reconciled with problems := [] } { reconciled' with problems := [] } :=
    ⟨calls.requests, calls.created⟩
  have unwanted : Alongside SameStop SameCalls
      (each (amid weather (cleanUp policy now)) { reconciled with problems := [] } orphans)
      (each (amid weather' (cleanUp policy now)) { reconciled' with problems := [] } orphans) :=
    each_sameCalls (fun _ _ orphan same => cleanUp_sameCalls same orphan) weather weather' started
      orphans
  refine alongside_bind unwanted ?_
  intro cleaned cleaned' calls'
  exact .ok ⟨calls, calls'⟩

/-- Whatever the cloud grants in each of two overhauls, both make the same requests and stop for the
same reason, and each accounts for every load balancer. -/
theorem overhaul_independent (policy : StackPolicy) (now : Instant)
    (weather weather' : StackWork → Cloud) (work : StackWork) (descriptors : List Descriptor)
    (orphans : List ObservedStack) :
    Alongside SameStop
      (fun works works' => SameCalls works.1 works'.1 ∧ SameCalls works.2 works'.2)
      (overhaul policy now weather work descriptors orphans)
      (overhaul policy now weather' work descriptors orphans) ∧
    ∀ reconciled cleaned,
      overhaul policy now weather work descriptors orphans = .ok (reconciled, cleaned) →
        Attends policy now weather descriptors work reconciled ∧
        Disposes policy now weather orphans { reconciled with problems := [] } cleaned := by
  refine ⟨overhaul_sameCalls ⟨rfl, rfl⟩ weather weather' descriptors orphans, ?_⟩
  intro reconciled cleaned done
  obtain ⟨_, first, done⟩ := bind_eq_ok_iff.mp done
  obtain ⟨_, second, same⟩ := bind_eq_ok_iff.mp done
  cases same
  exact ⟨attends_of_each weather first, disposes_of_each weather second⟩

def upheaval : Cloud :=
  (({} : Cloud).insertStack (stack "broken" .createFailed)).insertStack
    (stack "kept" .createComplete) |>.insertStack (stack "old" .createComplete)
where
  stack (name : StackName) (status : StackStatus) : Stack :=
    { name, status, dnsName := none, targetGroup := none, createdAt := ⟨1767225600, 0⟩
      tags := (Tags.ownedBy "shop").insert Tag.scheme "internal" }

def survivors (names : List StackName) : List ObservedStack :=
  Placement.readable (upheaval.provisioned.values.filter fun stack => stack.name ∈ names)

def demanded : List Descriptor :=
  let kept := (survivors ["kept"]).map fun observed => Descriptor.ofObserved observed none
  let key := CompatibilityKey.ofEndpoint (endpoint "web" .internetFacing) "ELBSecurityPolicy-2016-08"
  kept.map (fun descriptor => descriptor.add (endpoint "own" .internal) (KeySet.ofList ["own"]))
    ++ [(Descriptor.ofShared key none).add (endpoint "web" .internetFacing) (KeySet.ofList ["wide"])]
where
  endpoint (name : String) (scheme : Scheme) : Endpoint :=
    { id := ⟨.ingress, "default", name⟩, scheme }

def upheavalWork (weather : StackWork → Cloud) :
    Except (TimeOverflow × StackWork) (StackWork × StackWork) :=
  overhaul (Controller.steady.stackPolicy ⟨0, 0⟩) Controller.noon.now weather { cloud := upheaval }
    demanded (survivors ["broken", "old"])

def reluctant (work : StackWork) : Cloud := (work.cloud.fail "update_stack").fail "delete_stack"

/-- What is neither updated nor deleted keeps nothing else from being done. -/
theorem upheaval_independent :
    ∃ works works', upheavalWork StackWork.cloud = .ok works ∧
      upheavalWork reluctant = .ok works' ∧ SameCalls works.2 works'.2 ∧
      works.2.granted = works.2.requests ∧
      works.2.requests.map StackRequest.name = ["kept", "shop-00000001", "broken", "old"] ∧
      works'.2.granted.map StackRequest.name = ["shop-00000001", "old"] ∧
      (works'.1.problems ++ works'.2.problems).map Problem.scope = ["stack kept", "stack broken"] ∧
      Attends (Controller.steady.stackPolicy ⟨0, 0⟩) Controller.noon.now reluctant demanded
        { cloud := upheaval } works'.1 ∧
      Disposes (Controller.steady.stackPolicy ⟨0, 0⟩) Controller.noon.now reluctant
        (survivors ["broken", "old"]) { works'.1 with problems := [] } works'.2 := by
  have alongside := (overhaul_independent (Controller.steady.stackPolicy ⟨0, 0⟩) Controller.noon.now
    StackWork.cloud reluctant { cloud := upheaval } demanded (survivors ["broken", "old"])).1
  have accounts := (overhaul_independent (Controller.steady.stackPolicy ⟨0, 0⟩) Controller.noon.now
    reluctant StackWork.cloud { cloud := upheaval } demanded (survivors ["broken", "old"])).2
  have granted : (upheavalWork StackWork.cloud).toOption.map (fun works =>
      decide (works.2.granted = works.2.requests ∧ works.2.requests.map StackRequest.name
        = ["kept", "shop-00000001", "broken", "old"])) = some true := by decide +kernel
  have refused : (upheavalWork reluctant).toOption.map (fun works =>
      decide (works.2.granted.map StackRequest.name = ["shop-00000001", "old"] ∧
        (works.1.problems ++ works.2.problems).map Problem.scope = ["stack kept", "stack broken"]))
      = some true := by decide +kernel
  rcases alongside_cases alongside with
    ⟨_, _, stopped, _⟩ | ⟨works, works', done, done', _, calls⟩
  · rw [upheavalWork, stopped] at granted
    cases granted
  · rw [upheavalWork, done] at granted
    rw [upheavalWork, done'] at refused
    have granted := of_decide_eq_true (Option.some.inj granted)
    have refused := of_decide_eq_true (Option.some.inj refused)
    exact ⟨works, works', done, done', calls, granted.1, granted.2, refused.1, refused.2,
      accounts works'.1 works'.2 done'⟩

end StackWork

end IngressControl
