import IngressControl.Pass.Stacks
import IngressControl.Proofs.Cloud
import IngressControl.Proofs.Descriptor.Occupancy
/-!
What the work on stacks asks for and what becomes of the cloud.

Each step makes one request at most, and only one that the plan of its load balancer asks for. The
work ends early only when the end of the grace period cannot be represented.
-/

namespace IngressControl

inductive Descriptor.Asks (policy : StackPolicy) (now : Instant) (descriptor : Descriptor) :
    StackRequest → Prop
  | create {fresh : StackName} {spec : StackSpec} :
      descriptor.plan now policy.grace = .ok .create →
      descriptor.spec fresh policy.cluster now policy.grace = .ok spec →
        Asks policy now descriptor (.create spec)
  | update {drift : List Drift} {existing : ObservedStack} {spec : StackSpec} :
      descriptor.plan now policy.grace = .ok (.update drift) →
      descriptor.existing = some existing →
      descriptor.spec existing.name policy.cluster now policy.grace = .ok spec →
        Asks policy now descriptor (.update spec)

inductive ObservedStack.Asks (policy : StackPolicy) (now : Instant) (orphan : ObservedStack) :
    StackRequest → Prop
  | schedule {moment : Instant} : orphan.planOrphan now policy.grace = .ok (.schedule moment) →
      Asks policy now orphan (.scheduleDeletion orphan.name moment)
  | delete : orphan.planOrphan now policy.grace = .ok .delete →
      Asks policy now orphan (.delete orphan.name)

theorem Descriptor.move_eq_request {policy : StackPolicy} {now : Instant} {descriptor : Descriptor}
    {fresh : StackName} {action : DesiredAction} {request : StackRequest}
    (moved : descriptor.move policy fresh now action = .ok (.request request)) :
    (action = .create ∧ ∃ spec,
      descriptor.spec fresh policy.cluster now policy.grace = .ok spec ∧ request = .create spec) ∨
    ∃ drift existing spec, action = .update drift ∧ descriptor.existing = some existing ∧
      descriptor.spec existing.name policy.cluster now policy.grace = .ok spec ∧
      request = .update spec := by
  cases action with
  | create =>
      obtain ⟨spec, requested, same⟩ := Attempt.bind_eq_ok_iff.mp moved
      cases same
      exact .inl ⟨rfl, spec, requested, rfl⟩
  | update drift =>
      rw [move] at moved
      cases found : descriptor.existing with
      | none =>
          rw [found] at moved
          cases moved
      | some existing =>
          rw [found] at moved
          obtain ⟨spec, requested, same⟩ := Attempt.bind_eq_ok_iff.mp moved
          cases same
          exact .inr ⟨drift, existing, spec, rfl, rfl, requested, rfl⟩
  | failed =>
      rw [move] at moved
      cases found : descriptor.existing <;> rw [found] at moved <;> cases moved
  | wait => cases moved
  | inSync => cases moved

theorem Descriptor.asks_of_move {policy : StackPolicy} {now : Instant} {descriptor : Descriptor}
    {fresh : StackName} {action : DesiredAction} {request : StackRequest}
    (planned : descriptor.plan now policy.grace = .ok action)
    (moved : descriptor.move policy fresh now action = .ok (.request request)) :
    descriptor.Asks policy now request := by
  rcases move_eq_request moved with
    ⟨rfl, spec, requested, rfl⟩ | ⟨drift, existing, spec, rfl, found, requested, rfl⟩
  · exact .create planned requested
  · exact .update planned found requested

theorem ObservedStack.asks_of_move {policy : StackPolicy} {now : Instant} {orphan : ObservedStack}
    {action : OrphanAction} {request : StackRequest}
    (planned : orphan.planOrphan now policy.grace = .ok action)
    (moved : orphan.move action = .request request) : orphan.Asks policy now request := by
  cases action with
  | delete =>
      cases moved
      exact .delete planned
  | schedule moment =>
      cases moved
      exact .schedule planned
  | keep => cases moved

theorem Descriptor.plan_ok {descriptor : Descriptor} {now later : Instant} {grace : Span}
    (ends : now.plus? grace = some later) : ∃ action, descriptor.plan now grace = .ok action := by
  obtain ⟨schedule, desired, _⟩ := descriptor.desiredCertificates_get? ends
  rw [plan, drift, desired]
  cases descriptor.existing with
  | none => exact ⟨_, rfl⟩
  | some existing =>
      simp only [Except.map]
      split
      · exact ⟨_, rfl⟩
      · split
        · exact ⟨_, rfl⟩
        · exact ⟨_, rfl⟩

theorem Descriptor.plan_ne_create {descriptor : Descriptor} {existing : ObservedStack}
    (old : descriptor.existing = some existing) (now : Instant) (grace : Span) :
    descriptor.plan now grace ≠ .ok .create := by
  intro planned
  rw [plan, old] at planned
  simp only at planned
  split at planned
  · cases planned
  · split at planned
    · cases planned
    · obtain ⟨parts, _, same⟩ := Attempt.map_eq_ok_iff.mp planned
      split at same <;> cases same

theorem Descriptor.move_ok {descriptor : Descriptor} {policy : StackPolicy} {now later : Instant}
    (fresh : StackName) (action : DesiredAction) (ends : now.plus? policy.grace = some later) :
    ∃ move, descriptor.move policy fresh now action = .ok move := by
  have requested (name : StackName) :
      ∃ spec, descriptor.spec name policy.cluster now policy.grace = .ok spec := by
    obtain ⟨spec, requested, _⟩ := descriptor.spec_certificates name policy.cluster ends
    exact ⟨spec, requested⟩
  cases action with
  | create =>
      obtain ⟨spec, same⟩ := requested fresh
      exact ⟨.request (.create spec), by rw [move, same]; rfl⟩
  | update drift =>
      rw [move]
      cases descriptor.existing with
      | none => exact ⟨_, rfl⟩
      | some existing =>
          obtain ⟨spec, same⟩ := requested existing.name
          exact ⟨.request (.update spec), by simp only [same]; rfl⟩
  | failed =>
      rw [move]
      cases descriptor.existing with
      | none => exact ⟨_, rfl⟩
      | some existing => exact ⟨_, rfl⟩
  | wait => exact ⟨_, rfl⟩
  | inSync => exact ⟨_, rfl⟩

theorem ObservedStack.planOrphan_ok {orphan : ObservedStack} {now later : Instant} {grace : Span}
    (ends : now.plus? grace = some later) :
    ∃ action, orphan.planOrphan now grace = .ok action := by
  rw [planOrphan, ends]
  split
  · exact ⟨_, rfl⟩
  · split
    · exact ⟨_, rfl⟩
    · cases orphan.deletionScheduledAt with
      | none => exact ⟨_, rfl⟩
      | some moment =>
          simp only
          split
          · exact ⟨_, rfl⟩
          · exact ⟨_, rfl⟩

theorem ObservedStack.planOrphan_schedule {orphan : ObservedStack} {now moment : Instant}
    {grace : Span} (planned : orphan.planOrphan now grace = .ok (.schedule moment)) :
    orphan.stack.status.isDeleting = false ∧ orphan.stack.status.isFailed = false ∧
      now.plus? grace = some moment := by
  rw [planOrphan] at planned
  split at planned
  · cases planned
  · rename_i undeleted
    split at planned
    · cases planned
    · rename_i unfailed
      refine ⟨by simpa using undeleted, by simpa using unfailed, ?_⟩
      cases scheduled : orphan.deletionScheduledAt with
      | none =>
          simp only [scheduled] at planned
          cases ends : now.plus? grace with
          | none =>
              rw [ends] at planned
              cases planned
          | some later =>
              rw [ends] at planned
              cases planned
              rfl
      | some due =>
          simp only [scheduled] at planned
          split at planned <;> cases planned

section Each

variable {σ α : Type}

def reached : Except (TimeOverflow × σ) σ → σ
  | .ok work => work
  | .error (_, work) => work

def fronts (step : σ → α → Except TimeOverflow σ) (work : σ) : List α → List σ
  | [] => []
  | item :: rest =>
      work :: match step work item with
        | .ok after => fronts step after rest
        | .error _ => []

/-- What each step keeps, the whole work keeps as far as it came. -/
theorem each_induction {motive : σ → Prop} {step : σ → α → Except TimeOverflow σ} {items : List α}
    (kept : ∀ work after, ∀ item ∈ items, motive work → step work item = .ok after → motive after)
    (work : σ) (holds : motive work) : motive (reached (each step work items)) := by
  induction items generalizing work with
  | nil => exact holds
  | cons item rest ih =>
      rw [each]
      cases stepped : step work item with
      | error overflow => exact holds
      | ok after =>
          have next := kept work after item (List.mem_cons_self ..) holds stepped
          exact ih (fun work after item member => kept work after item (.tail _ member)) after next

theorem each_ok {step : σ → α → Except TimeOverflow σ} {items : List α}
    (ends : ∀ work, ∀ item ∈ items, ∃ after, step work item = .ok after) (work : σ) :
    ∃ after, each step work items = .ok after := by
  induction items generalizing work with
  | nil => exact ⟨work, rfl⟩
  | cons item rest ih =>
      obtain ⟨after, stepped⟩ := ends work item (.head _)
      rw [each, stepped]
      exact ih (fun work item member => ends work item (.tail _ member)) after

theorem each_error {step : σ → α → Except TimeOverflow σ} {items : List α} {work : σ}
    {stop : TimeOverflow × σ} (stopped : each step work items = .error stop) :
    ∃ work, ∃ item ∈ items, step work item = .error stop.1 := by
  induction items generalizing work with
  | nil => cases stopped
  | cons item rest ih =>
      rw [each] at stopped
      cases stepped : step work item with
      | error overflow =>
          rw [stepped] at stopped
          cases stopped
          exact ⟨work, item, .head _, stepped⟩
      | ok after =>
          rw [stepped] at stopped
          obtain ⟨work, other, member, failed⟩ := ih stopped
          exact ⟨work, other, .tail _ member, failed⟩

theorem each_stops {step : σ → α → Except TimeOverflow σ} {items : List α} {item : α}
    (member : item ∈ items) (fails : ∀ work, ∃ overflow, step work item = .error overflow)
    (work : σ) : ∃ stop, each step work items = .error stop := by
  induction items generalizing work with
  | nil => cases member
  | cons first rest ih =>
      rw [each]
      cases stepped : step work first with
      | error overflow => exact ⟨_, rfl⟩
      | ok after =>
          rcases List.mem_cons.mp member with rfl | behind
          · obtain ⟨overflow, failed⟩ := fails work
            rw [stepped] at failed
            cases failed
          · exact ih behind after

/-- Two works that each step keeps related, end alike. What relates them may depend on the items
still to come. -/
theorem each_alongside (Related : List α → σ → σ → Prop) {step step' : σ → α → Except TimeOverflow σ}
    (kept : ∀ item rest work work', Related (item :: rest) work work' →
      Attempt.Alongside Eq (Related rest) (step work item) (step' work' item))
    (items : List α) {work work' : σ} (related : Related items work work') :
    Attempt.Alongside (fun stop stop' => stop.1 = stop'.1 ∧ ∃ rest, Related rest stop.2 stop'.2)
      (Related []) (each step work items) (each step' work' items) := by
  induction items generalizing work work' with
  | nil => exact .ok related
  | cons item rest ih =>
      rw [each, each]
      rcases Attempt.alongside_cases (kept item rest work work' related) with
        ⟨overflow, overflow', stopped, stopped', same⟩ | ⟨after, after', stepped, stepped', next⟩
      · rw [stopped, stopped']
        exact .error ⟨same, _, related⟩
      · rw [stepped, stepped']
        exact ih next

end Each

namespace StackWork

variable {policy : StackPolicy} {now later : Instant} {Asked : StackRequest → Prop} {start : Cloud}

/-- The granted requests led from `start` to where the work stands, and every request that was made
was asked for. -/
structure Founded (policy : StackPolicy) (Asked : StackRequest → Prop) (start : Cloud)
    (work : StackWork) : Prop where
  performed : Cloud.Performs policy.createdAt start work.granted work.cloud
  asked : ∀ request ∈ work.granted, Asked request
  requested : ∀ request ∈ work.requests, Asked request

theorem issue_founded {work : StackWork} {request : StackRequest} (scope : String)
    (count : StackChanges → StackChanges) (asked : Asked request)
    (founded : Founded policy Asked start work) :
    Founded policy Asked start (work.issue policy scope count request) := by
  have appended {requests : List StackRequest} (before : ∀ other ∈ requests, Asked other) :
      ∀ other ∈ requests ++ [request], Asked other := by
    intro other member
    rcases List.mem_append.mp member with old | last
    · exact before other old
    · rw [List.mem_singleton.mp last]
      exact asked
  rw [issue]
  cases outcome : (work.note request).cloud.perform policy.createdAt request with
  | error failure => exact ⟨founded.performed, founded.asked, appended founded.requested⟩
  | ok cloud =>
      exact ⟨founded.performed.next outcome, appended founded.asked, appended founded.requested⟩

theorem apply_founded {work : StackWork} {move : Move} (scope : String)
    (count : StackChanges → StackChanges)
    (asked : ∀ request, move = .request request → Asked request)
    (founded : Founded policy Asked start work) :
    Founded policy Asked start (work.apply policy scope count move) := by
  cases move with
  | nothing => exact ⟨founded.performed, founded.asked, founded.requested⟩
  | refuse failure => exact ⟨founded.performed, founded.asked, founded.requested⟩
  | request request =>
      rw [apply]
      split
      · exact ⟨founded.performed, founded.asked, founded.requested⟩
      · exact issue_founded scope count (asked request rfl) founded

theorem reconcile_founded {work after : StackWork} {descriptor : Descriptor}
    (asked : ∀ request, descriptor.Asks policy now request → Asked request)
    (founded : Founded policy Asked start work)
    (done : reconcile policy now work descriptor = .ok after) :
    Founded policy Asked start after := by
  obtain ⟨action, planned, done⟩ := Attempt.bind_eq_ok_iff.mp done
  obtain ⟨move, moved, same⟩ := Attempt.bind_eq_ok_iff.mp done
  cases same
  apply apply_founded _ _ _ founded
  rintro request rfl
  exact asked request (Descriptor.asks_of_move planned moved)

theorem cleanUp_founded {work after : StackWork} {orphan : ObservedStack}
    (asked : ∀ request, orphan.Asks policy now request → Asked request)
    (founded : Founded policy Asked start work)
    (done : cleanUp policy now work orphan = .ok after) : Founded policy Asked start after := by
  obtain ⟨action, planned, same⟩ := Attempt.bind_eq_ok_iff.mp done
  cases same
  apply apply_founded _ _ _ founded
  intro request moved
  exact asked request (ObservedStack.asks_of_move planned moved)

theorem reconcileAll_ok (ends : now.plus? policy.grace = some later) (work : StackWork)
    (descriptors : List Descriptor) : ∃ after, reconcileAll policy now work descriptors = .ok after := by
  refine each_ok (fun work descriptor _ => ?_) work
  obtain ⟨action, planned⟩ := descriptor.plan_ok ends
  obtain ⟨move, moved⟩ := descriptor.move_ok (policy.freshName work.created) action ends
  exact ⟨_, by rw [reconcile, planned]; simp only [bind, Except.bind, moved]; rfl⟩

theorem cleanUpAll_ok (ends : now.plus? policy.grace = some later) (work : StackWork)
    (orphans : List ObservedStack) : ∃ after, cleanUpAll policy now work orphans = .ok after := by
  refine each_ok (fun work orphan _ => ?_) work
  obtain ⟨action, planned⟩ := orphan.planOrphan_ok ends
  exact ⟨_, by rw [cleanUp, planned]; rfl⟩

section Requests

variable {work after : StackWork} {request : StackRequest}

theorem apply_requests (scope : String) (count : StackChanges → StackChanges) (move : Move)
    (made : request ∈ work.requests) : request ∈ (work.apply policy scope count move).requests := by
  cases move with
  | nothing => exact made
  | refuse failure => exact made
  | request other =>
      rw [apply]
      split
      · exact made
      · rw [issue]
        cases (work.note other).cloud.perform policy.createdAt other <;>
          exact List.mem_append_left _ made

theorem apply_requested (scope : String) (count : StackChanges → StackChanges)
    (live : policy.dryRun = false) :
    request ∈ (work.apply policy scope count (.request request)).requests := by
  rw [apply, live, if_neg Bool.false_ne_true, issue]
  cases (work.note request).cloud.perform policy.createdAt request <;>
    exact List.mem_append_right _ (.head _)

theorem each_requests {α : Type} {step : StackWork → α → Except TimeOverflow StackWork}
    (kept : ∀ work after item, step work item = .ok after → request ∈ work.requests →
      request ∈ after.requests) (items : List α) (made : request ∈ work.requests) :
    request ∈ (reached (each step work items)).requests := by
  let Made (work : StackWork) : Prop := request ∈ work.requests
  have kept (work after : StackWork) (item : α) (_ : item ∈ items) (made : Made work)
      (stepped : step work item = .ok after) : Made after := kept work after item stepped made
  exact each_induction kept work made

theorem reconcile_requests {descriptor : Descriptor} (made : request ∈ work.requests)
    (done : reconcile policy now work descriptor = .ok after) : request ∈ after.requests := by
  obtain ⟨action, _, done⟩ := Attempt.bind_eq_ok_iff.mp done
  obtain ⟨move, _, same⟩ := Attempt.bind_eq_ok_iff.mp done
  cases same
  exact apply_requests _ _ move made

theorem cleanUp_requests {orphan : ObservedStack} (made : request ∈ work.requests)
    (done : cleanUp policy now work orphan = .ok after) : request ∈ after.requests := by
  obtain ⟨action, _, same⟩ := Attempt.bind_eq_ok_iff.mp done
  cases same
  exact apply_requests _ _ _ made

theorem reconcileAll_requests (descriptors : List Descriptor) (made : request ∈ work.requests) :
    request ∈ (reached (reconcileAll policy now work descriptors)).requests :=
  each_requests (fun _ _ _ stepped made => reconcile_requests made stepped) descriptors made

theorem cleanUpAll_requests (orphans : List ObservedStack) (made : request ∈ work.requests) :
    request ∈ (reached (cleanUpAll policy now work orphans)).requests :=
  each_requests (fun _ _ _ stepped made => cleanUp_requests made stepped) orphans made

end Requests

end StackWork

end IngressControl
