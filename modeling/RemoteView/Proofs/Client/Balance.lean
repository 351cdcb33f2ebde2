import RemoteView.Proofs.Client.Lifecycle
import RemoteView.Proofs.Client.WindowListeners
import RemoteView.Proofs.Host.Mounting

/-! # The balance of the window

An instance declares window listeners when it is mounted, and whatever payloads it is handed later,
these are the listeners that it has in the window, until it leaves the trees and they leave with it.
So an event of the window calls what the instances of the trees declared when they were mounted,
each as often as it was declared, and nothing else.
-/

namespace RemoteView.Client

/-- Everything that is mounted when something happens. -/
def actionMountings (action : Action) (client : Client) : List Mounting :=
  match client.call? action with
  | some (ready, call) => Host.mountings (ready.deeds call) (ready.prepared call)
  | none => []

/-- Clients that can be reached, with everything that was mounted on the way. -/
inductive RunMounting : List Mounting → Client → Prop
  | new (location : String) (policy : ReconnectPolicy) :
      RunMounting [] (Client.new location policy)
  | perform {mounted : List Mounting} {client : Client} (run : RunMounting mounted client)
      (action : Action) :
      RunMounting (mounted ++ client.actionMountings action) (client.perform action)

theorem RunMounting.reachable {mounted : List Mounting} {client : Client}
    (run : RunMounting mounted client) : Reachable client := by
  induction run with
  | new location policy => exact ⟨_, .new location policy⟩
  | perform _ action ih =>
      obtain ⟨past, run⟩ := ih
      exact ⟨_, run.perform action⟩

/-- Every client that can be reached has such a record. -/
theorem Reachable.exists_mounted {client : Client} (reachable : Reachable client) :
    ∃ mounted, RunMounting mounted client := by
  obtain ⟨past, run⟩ := reachable
  induction run with
  | new location policy => exact ⟨_, .new location policy⟩
  | perform _ action ih =>
      obtain ⟨mounted, run⟩ := ih
      exact ⟨_, run.perform action⟩

/-- Everything that is mounted while things happen one after another. -/
def mountingsAlong : List Action → Client → List Mounting
  | [], _ => []
  | action :: rest, client =>
      client.actionMountings action ++ mountingsAlong rest (client.perform action)

theorem RunMounting.along {mounted : List Mounting} {client : Client}
    (run : RunMounting mounted client) (actions : List Action) :
    RunMounting (mounted ++ mountingsAlong actions client) (client.performAll actions) := by
  induction actions generalizing mounted client with
  | nil =>
      rw [mountingsAlong, List.append_nil]
      exact run
  | cons action rest ih =>
      rw [mountingsAlong, ← List.append_assoc]
      exact ih (run.perform action)

/-! ## The record is kept -/

theorem hasMounted_quiet {mounted : List Mounting} {client after : Client}
    (has : Host.HasMounted mounted client.host) (change : Quiet client after) :
    Host.HasMounted mounted after.host := by
  cases change with
  | aside host body head => rwa [host]
  | report | locate | openSession | dropSession | setAttribute | addObject | changeInputs | sync =>
      exact has.congr rfl
  | fire id offered event => exact has.congr (Host.CalledBack.fire id event _).instances
  | setGlobal name value => exact has.congr (Host.CalledBack.setGlobal name value _).instances
  | setPayload id payload =>
      exact has.modifyInstance id _ (fun _ => rfl) (fun _ new => new) fun _ still => ⟨still, rfl⟩

theorem hasMounted_render {mounted : List Mounting} {client : Client} (sound : Sound client)
    (listening : client.host.Listening) (has : Host.HasMounted mounted client.host)
    (call : RenderCall) :
    Host.HasMounted (mounted ++ Host.mountings (client.deeds call) (client.prepared call))
      (client.render call).host := by
  obtain ⟨session, finish, turnover, -⟩ := turnover_render sound.settled call
  have instances := instances_prepared call client
  have windowListeners : (client.prepared call).windowListeners = client.host.windowListeners := by
    obtain ⟨_, _, _, _, same, -⟩ := prepared_eq call client
    rw [same]
  rw [host_render_eq_commit call client finish, deeds_eq call client finish]
  rw [← supply_prepared call] at turnover
  rw [Outcome.steps_deeds, Outcome.effects_deeds]
  exact (has.congr instances).commit turnover (sound.settled.congr instances)
    (listening.congr instances windowListeners fun _ => forwards_prepared)

theorem RunMounting.hasMounted {mounted : List Mounting} {client : Client}
    (run : RunMounting mounted client) : Host.HasMounted mounted client.host := by
  induction run with
  | new location policy => exact .empty
  | @perform mounted client run action has =>
      obtain ⟨past, reached⟩ := run.reachable
      have happens := happens_perform reached.sound.settled.named action
      unfold actionMountings
      generalize client.call? action = called at happens ⊢
      have still {before after : Client} {mounted : List Mounting}
          (has : Host.HasMounted mounted before.host) (changes : Quietly before after) :
          Host.HasMounted mounted after.host :=
        changes.preserves (P := fun client => Host.HasMounted mounted client.host)
          (fun _ _ has change => hasMounted_quiet has change) has
      cases happens with
      | quietly changes =>
          rw [List.append_nil]
          exact still has changes
      | render before live afterwards =>
          have ready := before.preserves (P := fun client => Sound client ∧ client.host.Listening)
            (fun _ _ ⟨sound, listening⟩ change =>
              ⟨sound.quiet change, listening_quiet listening change⟩)
            ⟨reached.sound, reached.listening⟩
          exact still (hasMounted_render ready.1 ready.2 (still has before) _) afterwards

/-! ## The listeners of the window -/

/-- The listeners of the window are, each as often as it is there, those that the instances of the
    trees declared when they were mounted, whatever payloads they were handed since; the instances
    of the trees are those that are mounted. An event of the window calls these listeners and no
    others. -/
theorem window_listeners_balanced {mounted : List Mounting} {client : Client}
    (run : RunMounting mounted client) :
    let living := mounted.filter (·.identity ∈ client.instances)
    (living.map Mounting.identity).Perm client.instances ∧
    (∀ id state, client.host.instances.get? id = some state →
      (state.phase = .mounted ↔ state.identity ∈ client.instances)) ∧
    client.host.windowListeners.Perm (living.flatMap Mounting.listeners) ∧
    (∀ one ∈ living,
      (client.host.windowListenersOf one.identity.context).Perm one.listeners) ∧
    (∀ entry ∈ client.host.windowListeners,
      ∃ identity ∈ client.instances, entry.2.context = identity.context) ∧
    ∀ event, ∃ ids,
      ids.Perm (((living.flatMap Mounting.listeners).filter (·.1 = event)).map Prod.snd) ∧
      ∀ native, client.dispatchWindow event native =
        (ids.length, client.modifyHost (·.fireAll ids native)) := by
  intro living
  obtain ⟨past, reached⟩ := run.reachable
  have has := run.hasMounted
  have listening := reached.listening
  have settled := reached.sound.settled
  have balanced := has.balanced listening settled
  refine ⟨has.perm_trees settled, (mountedAreShown_of_settled settled).2, balanced,
    fun one among => ?_, fun entry among => ?_, fun event => ?_⟩
  · obtain ⟨isMounted, there⟩ := List.mem_filter.mp among
    exact has.perm_windowListenersOf listening settled isMounted (of_decide_eq_true there)
  · obtain ⟨one, isLiving, declared⟩ := List.mem_flatMap.mp (balanced.mem_iff.mp among)
    obtain ⟨listener, -, rfl⟩ := List.mem_map.mp declared
    exact ⟨one.identity, of_decide_eq_true (List.mem_filter.mp isLiving).2, rfl⟩
  · exact ⟨client.host.listenersFor event, (balanced.filter _).map Prod.snd, fun _ => rfl⟩

/-- What leads to a client that shows the component with two functions of its own, and then hands it
    a payload that declares nothing. -/
def silenceButton : List Action :=
  showPayload resizingButton ++ [.renderAt Path.root.key (.object [("spine", .string "quiet")])]

/-- The component was handed a payload without window listeners; it has those still that it was
    mounted with. -/
theorem silenced_button_listens :
    let client := (new "/" .never).performAll silenceButton
    let first := firstInstance.listenerOf ⟨.name "3", "resize", none⟩
    let second := firstInstance.listenerOf ⟨.name "4", "resize", some answerGo⟩
    (client.host.instances.get? 0).map (·.payload.behaviour.listeners.length) = some 0 ∧
      RunMounting [⟨firstInstance, resizingButton⟩] client ∧
      client.host.windowListeners.Perm [("resize", first), ("resize", second)] ∧
      ∃ ids, ids.Perm [first, second] ∧ ∀ native,
        client.dispatchWindow "resize" native =
          (ids.length, client.modifyHost (·.fireAll ids native)) := by
  intro client first second
  have quiet : (client.host.instances.get? 0).map (·.payload.behaviour.listeners.length) =
      some 0 := by
    unfold client
    cbv
  have all : mountingsAlong silenceButton (new "/" .never) = [⟨firstInstance, resizingButton⟩] := by
    cbv
  have there : client.instances = [firstInstance] := by
    unfold client
    cbv
  have run : RunMounting [⟨firstInstance, resizingButton⟩] client := by
    have along := (RunMounting.new "/" .never).along silenceButton
    rwa [List.nil_append, all] at along
  obtain ⟨-, -, balanced, -, -, dispatch⟩ := window_listeners_balanced run
  rw [there] at balanced dispatch
  exact ⟨quiet, run, balanced, dispatch "resize"⟩

end RemoteView.Client
