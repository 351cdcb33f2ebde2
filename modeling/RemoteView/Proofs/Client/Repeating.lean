import Mathlib.Data.List.Nodup
import RemoteView.Proofs.Client.Readdressing
import RemoteView.Proofs.Host.Repeating
import RemoteView.Proofs.Spine.RoundTrip

/-! # Rendering the same spine again

Right after a frame, a frame for the same spine does nothing but to write the handles again: the
trees stay as they are, with all handles, inputs, instances and callbacks, and nothing about the host
changes but attributes of handles.
-/

namespace RemoteView

/-- Is a step one of those that neither mount nor unmount anything nor call anything back: writing a
    handle, handing out a payload, declaring? -/
def Step.IsQuiet : Step → Prop
  | .syncHandle .. | .receive .. | .declare .. => True
  | .createHandle .. | .detachRef _ | .willUnmount _ | .release _ | .instantiate .. => False

namespace Client

/-- After a spine was rendered each instance has the payload that the spine gives it. -/
theorem payload?_renderBody {client : Client} (sound : Sound client) (session : SessionId)
    (spine : Spine) :
    let after := client.renderBody session spine
    ∀ pair ∈ Mounted.given spine after.body, after.host.payload? pair.1 = some pair.2 := by
  intro after pair member
  obtain ⟨before, placed⟩ := sound.body
  let declared := client.host.declareAll (.root session) spine
  let outcome := Mounted.reconcile (.root session) client.body spine declared.supply
  have shows : Mounted.Shows (.root session) spine outcome.value :=
    Mounted.shows_reconcile (.root session) placed spine _
  have handed : Step.handed outcome.steps = Mounted.given spine outcome.value :=
    Mounted.reconcile_gives.reconcile (.root session) client.body spine _
  have settled := sound.settled.congr (Host.instances_declareAll (.root session) spine client.host)
  have named : (outcome.steps.foldl Host.runStep declared).Named :=
    Host.Named.steps settled.named outcome.steps
  have committed : after.host.payload? = (outcome.steps.foldl Host.runStep declared).payload? :=
    Host.payload?_effects outcome.effects named
  rw [committed]
  refine Host.payload?_steps_handed ?_ (fun id received => ?_) (handed ▸ member)
  · rw [handed, Mounted.shows_given.tree shows]
    exact nodup_body_instances (sound.render (.body session spine))
  · -- Payloads are handed to instances that were there before.
    obtain ⟨identity, old, rfl, -⟩ := (Mounted.turnover_reconcile (.root session) client.body spine
      declared.supply).received id received
    obtain ⟨state, found, -⟩ := Option.map_eq_some_iff.mp
      (settled.present identity (List.mem_append_left _ old))
    rw [Host.payload?, found]
    rfl

theorem actionDeeds_frame {client : Client} {session : SessionId} {raw : Json} {spine : Spine}
    (live : client.host.current = some session) (pending : client.scheduler.pending = some raw)
    (decodes : Spine.decode .root raw = .ok spine) :
    client.actionDeeds .frame =
      (Mounted.reconcile (.root session) client.body spine client.host.supply).deeds := by
  simp [actionDeeds, call?, Scheduler.take, pending, live, decodes, Except.toOption, deeds]

/-- Reconciling the body with the spine that it shows plans nothing that has not been done. -/
theorem reconcile_again {client : Client} {session : SessionId} {spine : Spine}
    (rendered : HasRendered session spine client) (distinct : spine.Distinct)
    (given : ∀ pair ∈ Mounted.given spine client.body, client.host.payload? pair.1 = some pair.2) :
    ∃ steps, Mounted.reconcile (.root session) client.body spine client.host.supply =
        ⟨client.body, steps, [], client.host.supply⟩ ∧
      ∀ step ∈ steps, client.host.Repeats step := by
  -- Everything that the tree holds, and all that has been declared, lies around.
  let around : Surroundings := ⟨fun _ => True, fun _ => True, client.host.HasDeclared⟩
  have lies : Mounted.LiesAround around spine client.body :=
    ⟨fun _ _ => trivial, fun _ _ => trivial, rendered.declared⟩
  obtain ⟨steps, same, idle⟩ :=
    Mounted.reconcile_idle.tree rendered.shows distinct lies client.host.supply
  have handed := Mounted.reconcile_gives.reconcile (.root session) client.body spine
    client.host.supply
  rw [same] at handed
  refine ⟨steps, same, fun step among => ?_⟩
  have isIdle := idle step among
  cases step with
  | syncHandle handle props => trivial
  | receive id payload =>
      exact given (id, payload) (handed ▸ List.mem_filterMap.mpr ⟨_, among, rfl⟩)
  | declare site content => exact isIdle
  | createHandle | detachRef | willUnmount | release | instantiate => exact isIdle.elim

theorem isQuiet_of_repeats {host : Host} {step : Step} (repeats : host.Repeats step) :
    step.IsQuiet := by
  cases step with
  | syncHandle | receive | declare => trivial
  | createHandle | detachRef | willUnmount | release | instantiate => exact repeats.elim

/-- Right after a frame, a frame for the same spine renders it again, and nothing comes of it but
    that handles are written: the body stays as it is, with its handles, inputs, instances and
    callbacks, and so does the head. The host stays as it is but for its objects, so nothing is sent
    or reported, no style rule is added, no window listener comes or goes, and no context changes;
    and nothing is mounted, unmounted or called back on the way. -/
theorem frame_again_changes_nothing {before client : Client} (reachable : Reachable before)
    {raw : Json} (pending : before.scheduler.pending = some raw)
    (framed : before.frame = (true, client)) {spine : Spine}
    (decodes : Spine.decode .root raw = .ok spine) (distinct : spine.Distinct) :
    let again := (client.schedule raw).frame
    again.1 = true ∧ again.2.body = client.body ∧ again.2.head = client.head ∧
      again.2.bodyHtml = client.bodyHtml ∧
      (∃ objects, again.2.host = { client.host with objects := objects } ∧
        client.host.objects.Kept objects) ∧
      Deed.effects ((client.schedule raw).actionDeeds .frame) = [] ∧
      ∀ step ∈ Deed.steps ((client.schedule raw).actionDeeds .frame), step.IsQuiet := by
  obtain ⟨past, run⟩ := reachable
  have after : Run (past ++ before.actionDeeds .frame) client := by
    have performed := run.perform .frame
    rwa [perform, framed] at performed
  have sessions := after.registered.tabled.bounded
  have instances := after.sound.settled.bounded
  obtain ⟨session, live, rfl⟩ := eq_renderBody_of_frame pending decodes framed
  have taken : Sound { before with scheduler := before.scheduler.take.2 } :=
    run.sound.congr rfl rfl rfl
  have rendered := hasRendered_renderBody taken live spine
  have given := payload?_renderBody taken session spine
  generalize ({ before with scheduler := before.scheduler.take.2 } : Client).renderBody session
    spine = client at *
  obtain ⟨steps, same, repeats⟩ := reconcile_again rendered distinct given
  have declared : client.host.declareAll (.root session) spine = client.host :=
    Host.declareAll_of_hasDeclared sessions rendered.atRoot
  have current : (client.schedule raw).host.current = some session := rendered.live
  have deeds : (client.schedule raw).actionDeeds .frame = steps.map .step := by
    rw [actionDeeds_frame current (pending_schedule raw client) decodes, body_schedule,
      host_schedule, same, Outcome.deeds, List.map_nil, List.append_nil]
  have full : (client.schedule raw).frame = _ :=
    frame_eq_renderBody current (pending_schedule raw client) decodes
  obtain ⟨objects, committed, kept⟩ := Host.steps_of_repeats instances sessions repeats
  simp only [full, renderBody, reconcileBody, modifyHost, host_schedule, body_schedule,
    head_schedule, declared, same]
  refine ⟨trivial, trivial, trivial, rfl, ⟨objects, committed, kept⟩, ?_, ?_⟩
  · rw [deeds]
    simp [Deed.effects]
  · intro step among
    have isStep : step ∈ steps := by simpa [deeds, Deed.steps] using among
    exact isQuiet_of_repeats (repeats step isStep)

/-- A button with a ref and a listener, and after it a component that listens to the window, their
    indices out of order. -/
def busyList : Spine :=
  .element "ul"
    [(1, .element "button" [] [.ref ⟨some "button", .nothing, .nothing⟩,
        .listener ⟨.name "2", "click", .nothing⟩]),
      (0, .component 1 "C1" (.text "inside") ⟨[⟨.name "3", "resize", none⟩], [], []⟩)] []

/-- The list is shown a second time. -/
theorem busy_list_again_changes_nothing :
    let before := (history [.openConnection, .message busyList.encode] (.new "/" .never)).2
    let client := before.frame.2
    let again := (client.schedule busyList.encode).frame
    client.instances.length = 1 ∧ client.refs.length = 1 ∧ client.host.windowListeners.length = 1 ∧
      again.1 = true ∧ again.2.body = client.body ∧
      (∃ objects, again.2.host = { client.host with objects := objects } ∧
        client.host.objects.Kept objects) := by
  intro before client again
  have framed : before.frame.1 = true := by
    unfold before
    cbv
  have counts : client.instances.length = 1 ∧ client.refs.length = 1 ∧
      client.host.windowListeners.length = 1 := by
    unfold client before
    cbv
  have distinct : busyList.Distinct := by
    simp [busyList, Spine.Distinct, Spine.DistinctChildren]
  have pending : before.scheduler.pending = some busyList.encode := rfl
  obtain ⟨rendered, body, -, -, host, -⟩ := frame_again_changes_nothing
    ⟨_, run_history "/" .never [.openConnection, .message busyList.encode]⟩ pending
    (Prod.ext framed rfl) (Spine.decode_encode busyList .root) distinct
  exact ⟨counts.1, counts.2.1, counts.2.2, rendered, body, host⟩

end Client

end RemoteView
