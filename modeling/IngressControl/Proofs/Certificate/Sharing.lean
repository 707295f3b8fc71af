import IngressControl.Certificate.Store
import IngressControl.Proofs.Attempt
import IngressControl.Proofs.Table
/-!
A certificate store that is read while it is refreshed.

A refresh asks all sources at once and has their answers in any order; until it has the last one the
snapshot is that of an earlier refresh. Several refreshes may be under way, and reads come at any
time. Whatever their order, a read shows all that one refresh has brought, and that is the last one
to have succeeded.
-/

namespace IngressControl

abbrev Answer := Except Failure Batch

structure SharedStore where
  store : CertificateStore
  started : Nat := 0
  underway : Table Nat (List (Option Answer)) := {}

namespace SharedStore

/-- What happens to a store in use. A refresh finishes when it publishes its snapshot, or gives up
for a source that has failed. That is when its result is settled; the caller receives it any time
later, and between the two the refresh leaves the store alone. -/
inductive Event where
  | start (refresh : Nat)
  | answer (refresh source : Nat) (answer : Answer)
  | finish (refresh : Nat) (returned : Except Failure Nat)
  | read (snapshot : List Certificate)

def ask (shared : SharedStore) : SharedStore :=
  { shared with
    started := shared.started + 1
    underway := shared.underway.insert shared.started
      (List.replicate shared.store.sources.length none) }

def note (shared : SharedStore) (refresh source : Nat) (answers : List (Option Answer))
    (given : Answer) : SharedStore :=
  { shared with underway := shared.underway.insert refresh (answers.set source (some given)) }

/-- With all answers a refresh publishes: the new snapshot takes the place of the old one at once. -/
def close (shared : SharedStore) (refresh : Nat) (answers : List Answer) : SharedStore :=
  { shared with
    store := (shared.store.settle answers).toOption.getD shared.store
    underway := shared.underway.erase refresh }

def outcome (shared : SharedStore) (answers : List Answer) : Except Failure Nat :=
  (shared.store.settle answers).map fun store => store.snapshot.length

inductive Step (shared : SharedStore) : Event → SharedStore → Prop
  | start : Step shared (.start shared.started) shared.ask
  | answer {refresh source : Nat} {answers : List (Option Answer)} (given : Answer) :
      shared.underway.get? refresh = some answers → answers[source]? = some none →
        Step shared (.answer refresh source given) (shared.note refresh source answers given)
  | finish {refresh : Nat} {answers : List Answer} :
      shared.underway.get? refresh = some (answers.map some) →
        Step shared (.finish refresh (shared.outcome answers)) (shared.close refresh answers)
  | read : Step shared (.read shared.store.snapshot) shared

/-- The events lead from one state of the store to another. -/
inductive Run (start : SharedStore) : List Event → SharedStore → Prop
  | none : Run start [] start
  | next {events : List Event} {shared after : SharedStore} {event : Event} :
      Run start events shared → Step shared event after → Run start (events ++ [event]) after

variable {sources : List CertificateSource} {events : List Event} {refresh : Nat}
  {answers : List Answer} {shared after : SharedStore} {event : Event}

def Answered (sources : List CertificateSource) (events : List Event) (refresh : Nat)
    (answers : List Answer) : Prop :=
  answers.length = sources.length ∧
    ∀ source answer, .answer refresh source answer ∈ events ↔ answers[source]? = some answer

/-- The snapshot is what the last refresh to succeed was given by all sources, in their order. -/
inductive Shows (sources : List CertificateSource) (events : List Event)
    (snapshot : List Certificate) : Prop
  | initial : (∀ refresh count, .finish refresh (.ok count) ∉ events) → snapshot = [] →
      Shows sources events snapshot
  | latest {before after : List Event} {refresh count : Nat} {batches : List Batch} :
      events = before ++ .finish refresh (.ok count) :: after →
      (∀ other count, .finish other (.ok count) ∉ after) →
      Answered sources before refresh (batches.map .ok) →
      snapshot = batches.flatMap Batch.certificates → Shows sources events snapshot

/-- What a refresh with these answers is to return, and makes of the snapshot. -/
inductive Settles (sources : List CertificateSource) (answers : List Answer)
    (before : List Certificate) : Except Failure Nat → List Certificate → Prop
  | published {batches : List Batch} : answers = batches.map .ok →
      Settles sources answers before (.ok (batches.flatMap Batch.certificates).length)
        (batches.flatMap Batch.certificates)
  | failed {index : Nat} {source : CertificateSource} {failure reported : Failure} :
      sources[index]? = some source → answers[index]? = some (.error failure) →
      (∀ earlier < index, ∃ batch, answers[earlier]? = some (.ok batch)) →
      (failure.kind = "certificate_source" → reported = failure) →
      (failure.kind ≠ "certificate_source" →
        reported = .certificateSource source.name failure.message) →
      Settles sources answers before (.error reported) before

def Event.refresh? : Event → Option Nat
  | .start refresh => some refresh
  | .answer refresh _ _ => some refresh
  | .finish refresh _ => some refresh
  | .read _ => none

/-- How far a refresh has come. While it is under way the answers noted are those that were given. -/
inductive Standing (sources : List CertificateSource) (events : List Event) (shared : SharedStore)
    (refresh : Nat) : Prop
  | unstarted : ¬ refresh < shared.started → shared.underway.get? refresh = none →
      (∀ event ∈ events, event.refresh? ≠ some refresh) → Standing sources events shared refresh
  | underway {answers : List (Option Answer)} : refresh < shared.started →
      shared.underway.get? refresh = some answers → answers.length = sources.length →
      (∀ source answer, .answer refresh source answer ∈ events ↔
        answers[source]? = some (some answer)) →
        Standing sources events shared refresh
  | finished {returned : Except Failure Nat} : refresh < shared.started →
      shared.underway.get? refresh = none → .finish refresh returned ∈ events →
        Standing sources events shared refresh

structure Coherent (sources : List CertificateSource) (events : List Event) (shared : SharedStore) :
    Prop where
  configured : shared.store.sources = sources
  standing : ∀ refresh, Standing sources events shared refresh
  shows : Shows sources events shared.store.snapshot

end SharedStore

namespace CertificateStore

theorem blame_of_kind (source : CertificateSource) (failure : Failure) :
    (failure.kind = "certificate_source" → source.blame failure = failure) ∧
      (failure.kind ≠ "certificate_source" →
        source.blame failure = .certificateSource source.name failure.message) := by
  cases failure <;> simp [Failure.kind, CertificateSource.blame]

theorem gather_cases {sources : List CertificateSource} {answers : List Answer}
    (same : answers.length = sources.length) :
    (∃ batches, answers = batches.map .ok ∧ gather (sources.zip answers) = .ok batches) ∨
    ∃ (index : Nat) (source : CertificateSource) (failure : Failure),
      sources[index]? = some source ∧
      answers[index]? = some (.error failure) ∧
      (∀ earlier < index, ∃ batch, answers[earlier]? = some (.ok batch)) ∧
      gather (sources.zip answers) = .error (source.blame failure) := by
  induction sources generalizing answers with
  | nil =>
      obtain rfl := List.length_eq_zero_iff.mp same
      exact .inl ⟨[], rfl, rfl⟩
  | cons source rest ih =>
      cases answers with
      | nil => cases same
      | cons answer others =>
          rw [List.zip_cons_cons, gather]
          cases answer with
          | error failure => exact .inr ⟨0, source, failure, rfl, rfl, nofun, rfl⟩
          | ok batch =>
              rcases ih (Nat.succ.inj same) with
                ⟨batches, rfl, gathered⟩ | ⟨index, culprit, failure, listed, given, good, gathered⟩
              · exact .inl ⟨batch :: batches, rfl, by rw [gathered]; rfl⟩
              · refine .inr ⟨index + 1, culprit, failure, listed, given, ?_, by rw [gathered]; rfl⟩
                intro earlier before
                cases earlier with
                | zero => exact ⟨batch, rfl⟩
                | succ earlier => exact good earlier (Nat.lt_of_succ_lt_succ before)

end CertificateStore

namespace SharedStore

variable {sources : List CertificateSource} {events : List Event} {refresh : Nat}
  {answers : List Answer} {shared after : SharedStore} {event : Event} {snapshot : List Certificate}

theorem settles_close (same : answers.length = shared.store.sources.length) (refresh : Nat) :
    Settles shared.store.sources answers shared.store.snapshot (shared.outcome answers)
      (shared.close refresh answers).store.snapshot := by
  rcases CertificateStore.gather_cases same with
    ⟨batches, given, gathered⟩ | ⟨index, source, failure, listed, given, good, gathered⟩
  · rw [outcome, close, CertificateStore.settle, gathered]
    exact .published given
  · rw [outcome, close, CertificateStore.settle, gathered]
    obtain ⟨kept, wrapped⟩ := CertificateStore.blame_of_kind source failure
    exact .failed listed given good kept wrapped

theorem close_sources (shared : SharedStore) (refresh : Nat) (answers : List Answer) :
    (shared.close refresh answers).store.sources = shared.store.sources := by
  rw [close, CertificateStore.settle]
  cases CertificateStore.gather (shared.store.sources.zip answers) <;> rfl

theorem answered_of_underway (standing : Standing sources events shared refresh)
    (complete : shared.underway.get? refresh = some (answers.map some)) :
    Answered sources events refresh answers := by
  cases standing with
  | unstarted _ absent _ => exact nomatch absent.symm.trans complete
  | finished _ absent _ => exact nomatch absent.symm.trans complete
  | underway _ known length given =>
      obtain rfl := Option.some.inj (known.symm.trans complete)
      refine ⟨by simpa using length, fun source answer => ?_⟩
      rw [given, List.getElem?_map]
      simp

theorem standing_frame (standing : Standing sources events shared refresh)
    (apart : event.refresh? ≠ some refresh)
    (started : refresh < after.started ↔ refresh < shared.started)
    (same : after.underway.get? refresh = shared.underway.get? refresh) :
    Standing sources (events ++ [event]) after refresh := by
  cases standing with
  | unstarted above absent silent =>
      exact .unstarted (above ∘ started.mp) (same.trans absent)
        (List.forall_mem_append.mpr ⟨silent, List.forall_mem_singleton.mpr apart⟩)
  | underway below known length given =>
      refine .underway (started.mpr below) (same.trans known) length fun source answer => ?_
      rw [← given, List.mem_append, List.mem_singleton]
      refine or_iff_left ?_
      rintro rfl
      exact apart rfl
  | finished below absent ended =>
      exact .finished (started.mpr below) (same.trans absent) (List.mem_append_left _ ended)

theorem shows_frame (shows : Shows sources events snapshot)
    (unpublished : ∀ refresh count, event ≠ .finish refresh (.ok count)) :
    Shows sources (events ++ [event]) snapshot := by
  have last {others : List Event}
      (none : ∀ refresh count, .finish refresh (.ok count) ∉ others) (refresh count : Nat) :
      .finish refresh (.ok count) ∉ others ++ [event] := by
    rw [List.mem_append, List.mem_singleton, not_or]
    exact ⟨none refresh count, (unpublished refresh count).symm⟩
  cases shows with
  | initial none blank => exact .initial (last none) blank
  | latest split none answered whole =>
      exact .latest (by rw [split, List.append_assoc]; rfl) (last none) answered whole

theorem shows_of_settles {before : List Certificate} {returned : Except Failure Nat}
    (shows : Shows sources events before) (answered : Answered sources events refresh answers)
    (settles : Settles sources answers before returned snapshot) :
    Shows sources (events ++ [.finish refresh returned]) snapshot := by
  cases settles with
  | published given => exact .latest rfl (fun _ _ => List.not_mem_nil) (given ▸ answered) rfl
  | failed => exact shows_frame shows nofun

theorem standing_ask (configured : shared.store.sources = sources)
    (standing : Standing sources events shared shared.started) :
    Standing sources (events ++ [.start shared.started]) shared.ask shared.started := by
  refine .underway (Nat.lt_succ_self _) (Table.get?_insert_self ..) (by simp [configured])
    fun source answer => ?_
  cases standing with
  | unstarted _ _ silent =>
      have unanswered : .answer shared.started source answer ∉ events :=
        fun member => silent _ member rfl
      simp [unanswered, List.getElem?_replicate]
  | underway below => exact absurd below (Nat.lt_irrefl _)
  | finished below => exact absurd below (Nat.lt_irrefl _)

theorem standing_note {source : Nat} {slots : List (Option Answer)} (given : Answer)
    (known : shared.underway.get? refresh = some slots) (vacant : slots[source]? = some none)
    (standing : Standing sources events shared refresh) :
    Standing sources (events ++ [.answer refresh source given])
      (shared.note refresh source slots given) refresh := by
  cases standing with
  | unstarted _ absent _ => exact nomatch absent.symm.trans known
  | finished _ absent _ => exact nomatch absent.symm.trans known
  | underway below known' length answered =>
      obtain rfl := Option.some.inj (known'.symm.trans known)
      refine .underway below (Table.get?_insert_self ..) (by simpa using length) fun place answer => ?_
      rw [List.mem_append, answered, List.mem_singleton]
      by_cases here : place = source
      · subst here
        obtain ⟨inside, _⟩ := List.getElem?_eq_some_iff.mp vacant
        rw [vacant, List.getElem?_set_self inside]
        simp [eq_comm]
      · rw [List.getElem?_set_ne (Ne.symm here)]
        simp [here]

theorem standing_close (complete : shared.underway.get? refresh = some (answers.map some))
    (returned : Except Failure Nat) (standing : Standing sources events shared refresh) :
    Standing sources (events ++ [.finish refresh returned]) (shared.close refresh answers)
      refresh := by
  cases standing with
  | unstarted _ absent _ => exact nomatch absent.symm.trans complete
  | finished _ absent _ => exact nomatch absent.symm.trans complete
  | underway below _ _ _ =>
      exact .finished below (Table.get?_erase_self ..) (List.mem_append_right _ (.head _))

theorem step_coherent (coherent : Coherent sources events shared) (step : Step shared event after) :
    Coherent sources (events ++ [event]) after := by
  have apart {refresh other : Nat} (differs : other ≠ refresh) : some refresh ≠ some other :=
    fun same => differs (Option.some.inj same).symm
  cases step with
  | start =>
      refine ⟨coherent.configured, fun refresh => ?_, shows_frame coherent.shows nofun⟩
      by_cases own : refresh = shared.started
      · subst own
        exact standing_ask coherent.configured (coherent.standing _)
      · refine standing_frame (coherent.standing refresh) (apart own) ?_ (Table.get?_insert_of_ne _ own)
        exact ⟨fun below => Nat.lt_of_le_of_ne (Nat.le_of_lt_succ below) own, Nat.lt_succ_of_lt⟩
  | @answer refresh _ _ given known vacant =>
      refine ⟨coherent.configured, fun other => ?_, shows_frame coherent.shows nofun⟩
      by_cases own : other = refresh
      · subst own
        exact standing_note given known vacant (coherent.standing other)
      · exact standing_frame (coherent.standing other) (apart own) Iff.rfl
          (Table.get?_insert_of_ne _ own)
  | @finish refresh answers complete =>
      have answered := answered_of_underway (coherent.standing refresh) complete
      have settles : Settles sources answers shared.store.snapshot _ _ :=
        coherent.configured ▸ settles_close (coherent.configured ▸ answered.1) refresh
      refine ⟨(close_sources ..).trans coherent.configured, fun other => ?_,
        shows_of_settles coherent.shows answered settles⟩
      by_cases own : other = refresh
      · subst own
        exact standing_close complete _ (coherent.standing other)
      · exact standing_frame (coherent.standing other) (apart own) Iff.rfl
          (Table.get?_erase_of_ne own)
  | read =>
      exact ⟨coherent.configured, fun refresh => standing_frame (coherent.standing refresh) nofun
        Iff.rfl rfl, shows_frame coherent.shows nofun⟩

theorem run_coherent (run : Run { store := { sources } } events shared) :
    Coherent sources events shared := by
  induction run with
  | none => exact ⟨rfl, fun _ => .unstarted (Nat.not_lt_zero _) rfl nofun, .initial nofun rfl⟩
  | next _ step ih => exact step_coherent ih step

theorem exists_map_some {α : Type} {slots : List (Option α)}
    (filled : ∀ slot ∈ slots, slot.isSome = true) : ∃ values : List α, slots = values.map some := by
  induction slots with
  | nil => exact ⟨[], rfl⟩
  | cons slot rest ih =>
      obtain ⟨value, rfl⟩ := Option.isSome_iff_exists.mp (filled slot (.head _))
      obtain ⟨values, rfl⟩ := ih fun slot member => filled slot (.tail _ member)
      exact ⟨value :: values, rfl⟩

theorem exists_finish (coherent : Coherent sources events shared)
    (started : .start refresh ∈ events) (unfinished : ∀ returned, .finish refresh returned ∉ events)
    (answered : ∀ source < sources.length, ∃ answer, .answer refresh source answer ∈ events) :
    ∃ returned after, Step shared (.finish refresh returned) after := by
  cases coherent.standing refresh with
  | unstarted _ _ silent => exact absurd rfl (silent _ started)
  | finished _ _ ended => exact absurd ended (unfinished _)
  | @underway slots _ known length given =>
      obtain ⟨answers, rfl⟩ : ∃ answers : List Answer, slots = answers.map some := by
        refine exists_map_some fun slot member => ?_
        obtain ⟨source, inside, rfl⟩ := List.mem_iff_getElem.mp member
        obtain ⟨answer, member⟩ := answered source (length ▸ inside)
        obtain ⟨_, here⟩ := List.getElem?_eq_some_iff.mp ((given source answer).mp member)
        rw [here]
        rfl
      exact ⟨_, _, .finish known⟩

/-- What the users of a store can rely on after these events: reads show the last refresh to have
succeeded, and a refresh comes to an end and accounts for all its answers. -/
structure Reliable (sources : List CertificateSource) (events : List Event) (shared : SharedStore) :
    Prop where
  reads : ∀ snapshot after, Step shared (.read snapshot) after →
    after = shared ∧ Shows sources events snapshot
  returns : ∀ refresh returned after, Step shared (.finish refresh returned) after →
    ∃ answers, Answered sources events refresh answers ∧
      Settles sources answers shared.store.snapshot returned after.store.snapshot
  ends : ∀ refresh, .start refresh ∈ events → (∀ returned, .finish refresh returned ∉ events) →
    (∀ source < sources.length, ∃ answer, .answer refresh source answer ∈ events) →
      ∃ returned after, Step shared (.finish refresh returned) after

theorem run_reliable (sources : List CertificateSource) (events : List Event) (shared : SharedStore)
    (run : Run { store := { sources } } events shared) : Reliable sources events shared := by
  have coherent := run_coherent run
  refine ⟨?_, ?_, fun _ => exists_finish coherent⟩
  · intro snapshot after step
    cases step
    exact ⟨rfl, coherent.shows⟩
  · intro refresh returned after step
    cases step with
    | @finish _ answers complete =>
        have answered := answered_of_underway (coherent.standing refresh) complete
        refine ⟨answers, answered, ?_⟩
        have settles := settles_close (answered.1.trans (congrArg _ coherent.configured.symm)) refresh
        rwa [coherent.configured] at settles

theorem answered_unique {others : List Answer} (answered : Answered sources events refresh answers)
    (answered' : Answered sources events refresh others) : answers = others :=
  List.ext_getElem? fun source => Option.ext fun answer =>
    (answered.2 source answer).symm.trans (answered'.2 source answer)

/-- Answers that all come from the same files, in whatever order, amount to a refresh at one go. -/
theorem finish_refresh {files : Files} {returned : Except Failure Nat}
    (run : Run { store := { sources } } events shared)
    (answered : Answered sources events refresh (sources.map (CertificateSource.answer files)))
    (step : Step shared (.finish refresh returned) after) :
    returned = (shared.store.refresh files).map (fun store => store.snapshot.length) ∧
      after.store = (shared.store.refresh files).toOption.getD shared.store := by
  have coherent := run_coherent run
  cases step with
  | finish complete =>
      obtain rfl := answered_unique (answered_of_underway (coherent.standing refresh) complete) answered
      rw [CertificateStore.refresh, coherent.configured]
      exact ⟨rfl, rfl⟩

def mainBatch : Batch := { certificates := [⟨"main", ["a.example.org"], ⟨0, 0⟩, ⟨1, 0⟩⟩] }

def spareBatch : Batch := { certificates := [⟨"spare", ["b.example.org"], ⟨0, 0⟩, ⟨1, 0⟩⟩] }

def twoSources : List CertificateSource :=
  [.fixed "main" mainBatch.certificates, .fixed "spare" spareBatch.certificates]

def throttled : Failure := .provider "ListCertificates" "throttled"

/-- The last source is the first to answer, and before the refresh has come to its end another one is
started, in which a source fails. -/
def exchange : List Event :=
  [.start 0, .answer 0 1 (.ok spareBatch), .read [], .start 1, .answer 0 0 (.ok mainBatch),
    .answer 1 1 (.ok spareBatch), .finish 0 (.ok 2), .answer 1 0 (.error throttled)]

/-- After that all certificates of the first refresh are read, and the second one fails for its
source and changes nothing. -/
theorem exchange_reliable :
    ∃ shared, Run { store := { sources := twoSources } } exchange shared ∧
      Reliable twoSources exchange shared ∧
      (∃ after, Step shared (.read (mainBatch.certificates ++ spareBatch.certificates)) after) ∧
      ∃ after, Step shared (.finish 1 (.error (.certificateSource "main" throttled.message))) after ∧
        after.store = shared.store := by
  have answered : Run { store := { sources := twoSources } }
      [.start 0, .answer 0 1 (.ok spareBatch), .read [], .start 1, .answer 0 0 (.ok mainBatch),
        .answer 1 1 (.ok spareBatch)] _ :=
    Run.none.next .start |>.next (.answer _ rfl rfl) |>.next .read |>.next .start
      |>.next (.answer _ rfl rfl) |>.next (.answer _ rfl rfl)
  have run : Run { store := { sources := twoSources } } exchange _ :=
    answered.next (@Step.finish _ 0 [.ok mainBatch, .ok spareBatch] rfl)
      |>.next (.answer _ rfl rfl)
  exact ⟨_, run, run_reliable _ _ _ run, ⟨_, .read⟩, _,
    @Step.finish _ 1 [.error throttled, .ok spareBatch] rfl, rfl⟩

end SharedStore

end IngressControl
