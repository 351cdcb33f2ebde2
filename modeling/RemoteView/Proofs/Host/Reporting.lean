import RemoteView.Proofs.Host.Sending

/-! # What renderings report

A rendering gives one kind of notice only: that a component took the place of another one in the
table of its session, when it is mounted. Its other steps and effects report nothing.
-/

namespace RemoteView.Host

/-- All notices that were given between two hosts say that a component took the place of another. -/
def ReportsReplacing (before after : Host) : Prop :=
  ∃ keys : List String, after.log = before.log ++ keys.map Notice.replacingComponent

namespace ReportsReplacing

variable {before middle after : Host}

theorem of_same (same : after.log = before.log) : ReportsReplacing before after :=
  ⟨[], by simp [same]⟩

theorem refl (host : Host) : ReportsReplacing host host := of_same rfl

theorem trans (first : ReportsReplacing before middle) (second : ReportsReplacing middle after) :
    ReportsReplacing before after := by
  obtain ⟨keys, log⟩ := first
  obtain ⟨more, logMore⟩ := second
  exact ⟨keys ++ more, by rw [logMore, log, List.append_assoc, List.map_append]⟩

theorem foldl {α : Type} {run : Host → α → Host}
    (one : ∀ host item, ReportsReplacing host (run host item)) (items : List α) (host : Host) :
    ReportsReplacing host (items.foldl run host) := by
  induction items generalizing host with
  | nil => exact refl host
  | cons item rest ih => exact (one host item).trans (ih _)

end ReportsReplacing

theorem reports_registerMounted (identity : Instance) (host : Host) :
    ReportsReplacing host (host.registerMounted identity) := by
  obtain ⟨keys, same⟩ := registerMounted_eq identity host
  exact ⟨keys, by rw [same]⟩

theorem log_attachListener (identity : Instance) (host : Host) (declared : WindowListener) :
    (host.attachListener identity declared).log = host.log := rfl

theorem reports_didMount (id : InstanceId) (host : Host) :
    ReportsReplacing host (host.didMount id) := by
  unfold didMount
  cases host.instances.get? id with
  | none => exact .refl host
  | some state =>
      simp only
      split
      · have entered := reports_registerMounted state.identity
          (host.modifyInstance id ({ · with phase := .mounted }))
        have hooked := CalledBack.runHooks state.identity state.payload.behaviour.onMount
          (Host.registerMounted state.identity
            (host.modifyInstance id ({ · with phase := .mounted })))
        exact (entered.trans (.of_same hooked.log)).trans
          (.foldl (fun host declared => .of_same (log_attachListener state.identity host declared))
            state.payload.behaviour.listeners _)
      · exact .refl host

theorem log_willUnmount (id : InstanceId) (host : Host) : (host.willUnmount id).log = host.log := by
  rcases willUnmount_cases id host with ⟨state, found, mounted⟩ | ⟨-, same⟩
  · obtain ⟨window, same⟩ := willUnmount_eq found mounted
    rw [same]
    exact (CalledBack.runHooks state.identity state.payload.behaviour.onUnmount
      (host.modifyInstance id ({ · with phase := .unmounted, attached := [] }))).log
  · rw [same]

theorem log_runStep (host : Host) (step : Step) : (host.runStep step).log = host.log := by
  cases step with
  | createHandle | syncHandle | release | instantiate | receive => rfl
  | detachRef id => exact (CalledBack.detachRef id host).log
  | willUnmount id => exact log_willUnmount id host
  | declare site spine =>
      obtain ⟨contexts, styles, sessions, same, -⟩ := declareAll_eq site spine host
      rw [runStep, same]

theorem reports_runEffect (host : Host) (effect : Effect) :
    ReportsReplacing host (host.runEffect effect) := by
  cases effect with
  | attachRef id handle => exact .of_same (CalledBack.attachRef id (.host handle) host).log
  | didMount id => exact reports_didMount id host

theorem reports_commit {α : Type} (host : Host) (outcome : Outcome α) :
    ReportsReplacing host (host.commit outcome) :=
  (ReportsReplacing.foldl (fun host step => .of_same (log_runStep host step)) outcome.steps host).trans
    (.foldl reports_runEffect outcome.effects _)

end RemoteView.Host
