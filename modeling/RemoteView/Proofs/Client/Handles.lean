import RemoteView.Proofs.Client.Run
import RemoteView.Proofs.Host.Handled

/-! # The handles of the client

In every client that can be reached the host knows the handles of the body and of the head.
-/

namespace RemoteView.Client

/-- The handles in the body and in the head. -/
def holdings (client : Client) : List Holding :=
  client.body.holdings none ++ Mounted.childHoldings none client.head

/-- The host knows the handles of the trees. -/
def Handled (client : Client) : Prop := client.host.Handled client.holdings

namespace Handled

variable {client after : Client}

theorem of_kept (handled : Handled client) (objects : client.host.objects.Kept after.host.objects)
    (window : after.host.window = client.host.window)
    (contexts : after.host.contexts = client.host.contexts) (body : after.body = client.body)
    (head : after.head = client.head) : Handled after := by
  unfold Handled holdings
  rw [body, head]
  refine Host.Handled.of_kept handled objects window fun context entry member => ?_
  rwa [Host.context, contexts] at member

theorem prepared (handled : Handled client) (call : RenderCall) :
    Handled { client with host := client.prepared call } := by
  refine Host.Handled.of_stays handled (prepared_induction call (.refl _) ?_ ?_)
  · exact fun _ _ _ stays => stays.trans (Host.Stays.declareAll _ _ _)
  · exact fun _ _ stays => stays.trans (.of_same rfl rfl rfl (.refl _) rfl rfl (List.prefix_refl _))

theorem reconcileBody (handled : Handled client) (session : SessionId) (spine : Spine) :
    Handled (client.reconcileBody (.root session) spine) :=
  Host.Handled.commit handled
    (Mounted.reconcile_handover.reconcile (.root session) client.body spine client.host.supply)

theorem reconcileHead (handled : Handled client) (session : SessionId) (spines : List Spine) :
    Handled (client.reconcileHead (.root session) spines) := by
  have swapped := Host.Handled.perm handled List.perm_append_comm
  exact (Host.Handled.commit swapped (Mounted.handover_reconcileAll (.root session) client.head
    spines client.host.supply)).perm List.perm_append_comm

theorem renderInstance (handled : Handled client) (state : InstanceState) :
    Handled (client.renderInstance state) := by
  unfold Client.renderInstance
  simp only
  split
  · exact Host.Handled.commit handled ((Mounted.rerender_handover state.identity.id
      state.payload.content).rerender client.body client.host.supply none)
  · split
    · have swapped := Host.Handled.perm handled List.perm_append_comm
      have handover := (Mounted.rerender_handover state.identity.id
        state.payload.content).rerenderFirst client.head client.host.supply none
      exact (Host.Handled.commit swapped handover).perm List.perm_append_comm
    · exact handled.of_kept (.refl _) rfl rfl rfl rfl

theorem render (handled : Handled client) (call : RenderCall) : Handled (client.render call) := by
  cases call with
  | body session spine => exact (handled.prepared (.body session spine)).reconcileBody session spine
  | head session spines =>
      exact (handled.prepared (.head session spines)).reconcileHead session spines
  | update id =>
      unfold Client.render
      simp only
      split
      · exact handled.renderInstance _
      · exact handled
  | loading => exact (handled.reconcileHead 0 []).reconcileBody 0 loadingSpine

theorem quiet (handled : Handled client) (change : Quiet client after) : Handled after := by
  cases change with
  | aside host body head =>
      exact handled.of_kept (by rw [host]; exact .refl _) (by rw [host]) (by rw [host]) body head
  | report | locate | openSession | dropSession | setPayload =>
      exact handled.of_kept (.refl _) rfl rfl rfl rfl
  | fire id offered event =>
      have called := Host.CalledBack.fire id event client.host
      exact handled.of_kept called.objects.toKept called.window (Host.contexts_fire id event _) rfl rfl
  | setGlobal name value =>
      have called := Host.CalledBack.setGlobal name value client.host
      obtain ⟨objects, same⟩ := Host.setGlobal_eq name value client.host
      exact handled.of_kept called.objects.toKept called.window (by rw [modifyHost, same]) rfl rfl
  | setAttribute handle name value =>
      exact handled.of_kept (.modifyElement _ handle _) rfl rfl rfl rfl
  | addObject object =>
      refine handled.of_kept (.put fun kind found => ?_) rfl rfl rfl rfl
      rw [Host.Handled.kind?_of_le handled (Nat.le_refl _)] at found
      cases found
  | changeInputs keeps =>
      unfold Handled holdings
      rw [Mounted.holdings_mapNodes keeps]
      exact handled
  | sync handle props => exact handled.of_kept (.modifyElement _ handle _) rfl rfl rfl rfl

/-! ## Objects stay what they are -/

theorem kept_reconcileBody (handled : Handled client) (session : SessionId) (spine : Spine) :
    client.host.objects.Kept (client.reconcileBody (.root session) spine).host.objects :=
  Host.Handled.kept_commit handled
    (Mounted.reconcile_handover.reconcile (.root session) client.body spine client.host.supply)

theorem kept_reconcileHead (handled : Handled client) (session : SessionId)
    (spines : List Spine) :
    client.host.objects.Kept (client.reconcileHead (.root session) spines).host.objects :=
  Host.Handled.kept_commit (Host.Handled.perm handled List.perm_append_comm)
    (Mounted.handover_reconcileAll (.root session) client.head spines client.host.supply)

theorem kept_renderInstance (handled : Handled client) (state : InstanceState) :
    client.host.objects.Kept (client.renderInstance state).host.objects := by
  unfold Client.renderInstance
  simp only
  split
  · exact Host.Handled.kept_commit handled ((Mounted.rerender_handover state.identity.id
      state.payload.content).rerender client.body client.host.supply none)
  · split
    · exact Host.Handled.kept_commit (Host.Handled.perm handled List.perm_append_comm)
        ((Mounted.rerender_handover state.identity.id state.payload.content).rerenderFirst
          client.head client.host.supply none)
    · exact .refl _

/-- A call of the renderer leaves objects what they are. -/
theorem kept_render (handled : Handled client) (call : RenderCall) :
    client.host.objects.Kept (client.render call).host.objects := by
  cases call with
  | body session spine =>
      have kept := (handled.prepared (.body session spine)).kept_reconcileBody session spine
      rwa [objects_prepared] at kept
  | head session spines =>
      have kept := (handled.prepared (.head session spines)).kept_reconcileHead session spines
      rwa [objects_prepared] at kept
  | update id =>
      unfold Client.render
      simp only
      split
      · exact handled.kept_renderInstance _
      · exact .refl _
  | loading =>
      exact (handled.kept_reconcileHead 0 []).trans
        ((handled.reconcileHead 0 []).kept_reconcileBody 0 loadingSpine)

theorem kept_quiet (handled : Handled client) (change : Quiet client after) :
    client.host.objects.Kept after.host.objects := by
  cases change with
  | aside host => rw [host]; exact .refl _
  | report | locate | openSession | dropSession | setPayload | changeInputs => exact .refl _
  | fire id _ event => exact (Host.CalledBack.fire id event client.host).objects.toKept
  | setGlobal name value => exact (Host.CalledBack.setGlobal name value client.host).objects.toKept
  | setAttribute handle | sync handle => exact .modifyElement _ handle _
  | addObject object =>
      refine .put fun kind found => ?_
      rw [Host.Handled.kind?_of_le handled (Nat.le_refl _)] at found
      cases found

theorem kept_quietly (handled : Handled client) (changes : Quietly client after) :
    client.host.objects.Kept after.host.objects := by
  have both : Handled after ∧ client.host.objects.Kept after.host.objects :=
    changes.preserves
      (P := fun after => Handled after ∧ client.host.objects.Kept after.host.objects)
      (fun _ _ ⟨handled, kept⟩ change =>
        ⟨handled.quiet change, kept.trans (handled.kept_quiet change)⟩) ⟨handled, .refl _⟩
  exact both.2

theorem move (handled : Handled client) {deeds : List Deed} (move : Move client deeds after) :
    Handled after := by
  cases move with
  | quiet change => exact handled.quiet change
  | render call live => exact handled.render call

end Handled

theorem Run.handled {past : List Deed} {client : Client} (run : Run past client) :
    Handled client :=
  run.invariant (P := fun _ client => Handled client) (fun _ _ => Host.Handled.empty)
    fun _ _ _ _ handled move => handled.move move

end RemoteView.Client
