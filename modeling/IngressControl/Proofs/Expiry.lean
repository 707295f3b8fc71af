import IngressControl.Proofs.Constancy
import IngressControl.Proofs.Pass.Retirement
import IngressControl.Proofs.Run
/-!
Runs of passes, and the certificates that they retire.

The invariant of a run is that every removal time in the tags of a stack goes back to a pass that
updated the stack without a use for the certificate, with no use and no other time since. Such a
time survives its way through the tags: it is a whole second, so it is read as it was written.
-/

namespace IngressControl

namespace Cloud

/-- The removal time of a certificate on the stack of this name. -/
def removal? (cloud : Cloud) (name : StackName) (id : CertificateId) : Option Instant :=
  (cloud.provisioned.get? name).bind fun stack => stack.tags.removal? id

theorem removal?_eq_some {cloud : Cloud} {name : StackName} {id : CertificateId}
    {removal : Instant} : cloud.removal? name id = some removal ↔
      ∃ stack, cloud.provisioned.get? name = some stack ∧ stack.tags.removal? id = some removal :=
  Option.bind_eq_some_iff

theorem removal?_of_sameTags {before after : Cloud} (same : before.SameTags after)
    (name : StackName) (id : CertificateId) : after.removal? name id = before.removal? name id := by
  have tagged (cloud : Cloud) : cloud.removal? name id
      = ((cloud.provisioned.get? name).map fun stack => (stack.name, stack.tags)).bind
        fun entry => entry.2.removal? id := by
    rw [removal?]
    cases cloud.provisioned.get? name <;> rfl
  rw [tagged, tagged, same name]

end Cloud

namespace Controller

variable {controller : Controller}

def StartsUnretired (turns : List Turn) : Prop :=
  ∀ turn ∈ turns.head?, turn.world.cloud.Named ∧ ∀ name id, turn.world.cloud.removal? name id = none

def EndsPlainly (controller : Controller) (turns : List Turn) : Prop :=
  ∀ turn ∈ turns, ∃ moment, turn.now.plus? controller.grace = some moment ∧ moment.HasPlainYear

/-- No endpoint that the pass places on the stack uses the certificate. -/
def Spares (controller : Controller) (turn : Turn) (name : StackName) (id : CertificateId) : Prop :=
  ¬ (turn.result controller).placement.Uses name id

/-- One of the turns updated the stack without a use for the certificate and set this removal time,
at the end of its grace period. No update of the stack behind it used the certificate or stated
another time. -/
def Retires (controller : Controller) (turns : List Turn) (name : StackName) (id : CertificateId)
    (removal : Instant) : Prop :=
  ∃ before retiring between moment, turns = before ++ retiring :: between ∧
    retiring.now.plus? controller.grace = some moment ∧ moment.stamped = removal ∧
    (∃ spec, .update spec ∈ (retiring.result controller).granted ∧ spec.name = name) ∧
    controller.Spares retiring name id ∧
    ∀ turn ∈ between, ∀ spec, .update spec ∈ (turn.result controller).granted → spec.name = name →
      spec.tags.removal? id = some removal ∧ controller.Spares turn name id

def Accounted (controller : Controller) (turns : List Turn) (cloud : Cloud) : Prop :=
  ∀ name id removal, cloud.removal? name id = some removal →
    removal.Storable ∧ controller.Retires turns name id removal

theorem retires_append {turns : List Turn} {name : StackName} {id : CertificateId}
    {removal : Instant} {turn : Turn} (retires : controller.Retires turns name id removal)
    (kept : ∀ spec, .update spec ∈ (turn.result controller).granted → spec.name = name →
      spec.tags.removal? id = some removal ∧ controller.Spares turn name id) :
    controller.Retires (turns ++ [turn]) name id removal := by
  obtain ⟨before, retiring, between, moment, rfl, ends, set, updated, spared, quiet⟩ := retires
  refine ⟨before, retiring, between ++ [turn], moment, by simp, ends, set, updated, spared, ?_⟩
  intro other member
  rcases List.mem_append.mp member with old | last
  · exact quiet other old
  · rw [List.mem_singleton.mp last]
    exact kept

theorem accounted_turn {turns : List Turn} {turn : Turn} {moment : Instant}
    (named : turn.world.cloud.Named) (ends : turn.now.plus? controller.grace = some moment)
    (plain : moment.HasPlainYear) (accounted : controller.Accounted turns turn.world.cloud) :
    controller.Accounted (turns ++ [turn]) (turn.result controller).world.cloud := by
  intro name id removal stated
  obtain ⟨stack, found, stated⟩ := Cloud.removal?_eq_some.mp stated
  rcases pass_removal? named ends plain found stated with
    ⟨rfl, updated, spared⟩ | ⟨earlier, former, present, old, same, kept⟩
  · exact ⟨Instant.storable_stamped plain,
      turns, turn, [], moment, rfl, ends, rfl, updated, spared, nofun⟩
  · obtain ⟨storable, retires⟩ :=
      accounted name id former (Cloud.removal?_eq_some.mpr ⟨earlier, present, old⟩)
    obtain rfl := same storable
    exact ⟨storable, retires_append retires kept⟩

theorem run_accounted {earlier : List Turn} {turn : Turn}
    (run : controller.IsRun (earlier ++ [turn])) (start : StartsUnretired (earlier ++ [turn]))
    (plain : controller.EndsPlainly earlier) :
    turn.world.cloud.Named ∧ controller.Accounted earlier turn.world.cloud := by
  refine run_induction (R := fun before after => before.cloud.SameTags after.cloud)
    (motive := fun turns world => world.cloud.Named ∧ controller.Accounted turns world.cloud)
    run ?_ ?_ ?_
  · intro first member
    obtain ⟨named, unretired⟩ := start first member
    refine ⟨named, fun name id removal stated => ?_⟩
    rw [unretired] at stated
    cases stated
  · rintro turns before after same ⟨named, accounted⟩
    refine ⟨Cloud.named_of_sameTags same named, fun name id removal stated => ?_⟩
    rw [Cloud.removal?_of_sameTags same] at stated
    exact accounted name id removal stated
  · rintro turns passed member ⟨named, accounted⟩
    obtain ⟨moment, ends, year⟩ := plain passed member
    exact ⟨pass_named named, accounted_turn named ends year accounted⟩

/-- Whenever a pass of a run takes a certificate off a stack that stays, the certificate is not used
there and past its removal time, and that is the end of the grace period since an update of the
stack without a use for it, with no use and no other time in between. -/
theorem certificate_outlives_grace (controller : Controller) (earlier later : List Turn)
    (turn : Turn) (name : StackName) (id : CertificateId) (stack after : Stack)
    (run : controller.IsRun (earlier ++ turn :: later))
    (start : StartsUnretired (earlier ++ turn :: later))
    (plain : controller.EndsPlainly (earlier ++ turn :: later))
    (present : turn.world.cloud.provisioned.get? name = some stack)
    (tagged : stack.tags.contains (Tag.certificateStart ++ id) = true)
    (found : (turn.result controller).world.cloud.provisioned.get? name = some after)
    (gone : after.tags.contains (Tag.certificateStart ++ id) = false) :
    ∃ removal, stack.tags.removal? id = some removal ∧ removal ≤ turn.now ∧
      controller.Spares turn name id ∧ controller.Retires earlier name id removal := by
  have cut : earlier ++ turn :: later = earlier ++ [turn] ++ later := by simp
  rw [cut] at run start
  -- What comes after the removal does not matter.
  have front : controller.IsRun (earlier ++ [turn]) := (List.isChain_append.mp run).1
  have begun : StartsUnretired (earlier ++ [turn]) := by
    intro first member
    exact start first (by cases earlier <;> simpa using member)
  obtain ⟨named, accounted⟩ :=
    run_accounted front begun fun passed member => plain passed (List.mem_append_left _ member)
  obtain ⟨moment, ends, _⟩ := plain turn (by simp)
  obtain ⟨spared, removal, stated, past⟩ := pass_retires named ends present tagged found gone
  obtain ⟨_, retires⟩ :=
    accounted name id removal (Cloud.removal?_eq_some.mpr ⟨stack, present, stated⟩)
  exact ⟨removal, stated, past, spared, retires⟩

def joined : Turn where
  world :=
    { orchestrator := ({} : Orchestrator).upsert
          { id := ⟨.ingress, "shop", "a"⟩, hostnames := ["h1.x"] }
        |>.upsert { id := ⟨.ingress, "shop", "b"⟩, hostnames := ["h2.x"] } }
  circumstances := midday

def parted : Turn where
  world :=
    let left := (joined.result steady).world
    { left with orchestrator := left.orchestrator.remove ⟨.ingress, "shop", "b"⟩ }
  circumstances := { midday with now := ⟨1772366700, 5⟩ }

def hourAfter : Turn where
  world := (parted.result steady).world
  circumstances := { midday with now := ⟨1772370300, 0⟩ }

theorem parted_isRun : steady.IsRun [joined, parted, hourAfter] :=
  .cons_cons (Cloud.sameTags_refl _) (.cons_cons (Cloud.sameTags_refl _) (.singleton _))

theorem parted_endsPlainly : steady.EndsPlainly [joined, parted, hourAfter] := by
  intro turn member
  simp only [List.mem_cons, List.not_mem_nil, or_false] at member
  rcases member with rfl | rfl | rfl
  · exact ⟨⟨1772370000, 0⟩, by decide +kernel, by decide +kernel, by decide +kernel⟩
  · exact ⟨⟨1772370300, 5⟩, by decide +kernel, by decide +kernel, by decide +kernel⟩
  · exact ⟨⟨1772373900, 0⟩, by decide +kernel, by decide +kernel, by decide +kernel⟩

theorem parted_certificate_outlives_grace :
    ∃ removal stack, hourAfter.world.cloud.provisioned.get? "shop-00000001" = some stack ∧
      stack.tags.removal? "c2" = some removal ∧ removal ≤ hourAfter.now ∧
      steady.Spares hourAfter "shop-00000001" "c2" ∧
      steady.Retires [joined, parted] "shop-00000001" "c2" removal := by
  have tagged : (hourAfter.world.cloud.provisioned.get? "shop-00000001").map
      (fun stack => stack.tags.contains (Tag.certificateStart ++ "c2")) = some true := by
    simp only [hourAfter, parted, Turn.result, pass, process, Placement.ofStacks_eq_insertion]
    decide +kernel
  have gone : ((hourAfter.result steady).world.cloud.provisioned.get? "shop-00000001").map
      (fun stack => stack.tags.contains (Tag.certificateStart ++ "c2")) = some false := by
    simp only [hourAfter, parted, Turn.result, pass, process, Placement.ofStacks_eq_insertion]
    decide +kernel
  obtain ⟨stack, present, tagged⟩ := Option.map_eq_some_iff.mp tagged
  obtain ⟨after, found, gone⟩ := Option.map_eq_some_iff.mp gone
  have start : StartsUnretired ([joined, parted] ++ hourAfter :: []) := by
    rintro first ⟨⟩
    exact ⟨Cloud.empty_named, fun _ _ => rfl⟩
  obtain ⟨removal, stated, past, spared, retires⟩ := certificate_outlives_grace steady
    [joined, parted] [] hourAfter "shop-00000001" "c2" stack after parted_isRun start
    parted_endsPlainly present tagged found gone
  exact ⟨removal, stack, present, stated, past, spared, retires⟩

end Controller

end IngressControl
