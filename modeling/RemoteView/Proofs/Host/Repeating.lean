import RemoteView.Proofs.Host.Mounting
import RemoteView.Proofs.Mounted.Given

/-! # Doing the same again

After a rendering every instance has the payload that the rendering handed to it. So steps that hand
these payloads out once more and declare what has been declared change nothing about the host but
its objects: handles are written, and that is all.
-/

namespace RemoteView

namespace Host

/-- The payload of an instance. -/
def payload? (host : Host) (id : InstanceId) : Option Payload :=
  (host.instances.get? id).map InstanceState.payload

theorem payload?_congr {host after : Host} (same : after.instances = host.instances) :
    after.payload? = host.payload? := by
  funext id
  rw [payload?, same, payload?]

theorem payload?_modifyInstance (id : InstanceId) (change : InstanceState → InstanceState)
    (same : ∀ state, (change state).payload = state.payload) (host : Host) :
    (host.modifyInstance id change).payload? = host.payload? := by
  funext n
  simp only [payload?, modifyInstance, Numbered.get?_modify]
  split
  · cases host.instances.get? n with
    | none => rfl
    | some state => exact congrArg some (same state)
  · rfl

theorem payload?_willUnmount (id : InstanceId) (host : Host) :
    (host.willUnmount id).payload? = host.payload? := by
  rcases willUnmount_cases id host with ⟨state, found, mounted⟩ | ⟨-, same⟩
  · rw [payload?_congr (instances_willUnmount found mounted)]
    exact payload?_modifyInstance id ({ · with phase := .unmounted, attached := [] })
      (fun _ => rfl) host
  · rw [same]

theorem payload?_didMount {host : Host} (named : host.Named) (id : InstanceId) :
    (host.didMount id).payload? = host.payload? := by
  by_cases waits : ∃ state, host.instances.get? id = some state ∧ state.phase = .created
  · obtain ⟨state, found, created⟩ := waits
    obtain rfl : state.identity.id = id := named.id_eq found
    funext n
    by_cases here : n = state.identity.id
    · subst here
      rw [payload?, get?_didMount_created found created, payload?, found]
      rfl
    · rw [payload?, get?_didMount_other named here, payload?]
  · rw [didMount_of_not_created fun state found created => waits ⟨state, found, created⟩]

theorem payload?_runStep {host : Host} {step : Step} {id : InstanceId}
    (other : ∀ payload, step.handed? ≠ some (id, payload)) :
    (host.runStep step).payload? id = host.payload? id := by
  cases step with
  | createHandle | syncHandle => rfl
  | detachRef ref => rw [runStep, payload?_congr (CalledBack.detachRef ref host).instances]
  | willUnmount n => rw [runStep, payload?_willUnmount]
  | release n =>
      exact congrFun (payload?_modifyInstance n ({ · with isHeld := false }) (fun _ => rfl) host) id
  | instantiate identity payload =>
      have apart : id ≠ identity.id := fun same => other payload (by rw [same]; rfl)
      rw [payload?, payload?]
      exact congrArg _ ((Numbered.get?_put _ _ _ _).trans (if_neg apart))
  | receive n payload =>
      have apart : id ≠ n := fun same => other payload (by rw [same]; rfl)
      rw [payload?, payload?]
      exact congrArg _ ((Numbered.get?_modify _ _ _ _).trans (if_neg apart))
  | declare site spine => rw [runStep, payload?_congr (instances_declareAll site spine host)]

/-- What a step hands to an instance is its payload, if the instance is new or there already. -/
theorem payload?_runStep_handed {host : Host} {step : Step} {id : InstanceId} {payload : Payload}
    (handed : step.handed? = some (id, payload))
    (known : step.receiver? = some id → (host.payload? id).isSome) :
    (host.runStep step).payload? id = some payload := by
  cases step with
  | instantiate identity given =>
      obtain ⟨rfl, rfl⟩ := Prod.mk.inj (Option.some.inj handed)
      rw [payload?]
      exact congrArg _ ((Numbered.get?_put _ _ _ _).trans (if_pos rfl))
  | receive n given =>
      obtain ⟨rfl, rfl⟩ := Prod.mk.inj (Option.some.inj handed)
      have there := known rfl
      rw [payload?, Option.isSome_map] at there
      obtain ⟨state, found⟩ := Option.isSome_iff_exists.mp there
      have stored : (host.setPayload n given).instances.get? n =
          some { state with payload := given } := by
        rw [setPayload, modifyInstance, Numbered.get?_modify, if_pos rfl, found, Option.map_some]
      rw [runStep, payload?, stored, Option.map_some]
  | createHandle | syncHandle | detachRef | willUnmount | release | declare => cases handed

theorem isSome_payload?_runStep {host : Host} (step : Step) {id : InstanceId}
    (there : (host.payload? id).isSome) : ((host.runStep step).payload? id).isSome := by
  by_cases handed : ∃ payload, step.handed? = some (id, payload)
  · obtain ⟨payload, handed⟩ := handed
    rw [payload?_runStep_handed handed fun _ => there]
    rfl
  · rw [payload?_runStep fun payload same => handed ⟨payload, same⟩]
    exact there

theorem payload?_steps {steps : List Step} {host : Host} {id : InstanceId}
    (other : id ∉ (Step.handed steps).map Prod.fst) :
    (steps.foldl runStep host).payload? id = host.payload? id := by
  induction steps generalizing host with
  | nil => rfl
  | cons step rest ih =>
      simp only [Step.handed_cons, List.map_append, List.mem_append, not_or] at other
      rw [List.foldl_cons, ih other.2, payload?_runStep]
      intro payload same
      exact other.1 (List.mem_map.mpr ⟨_, Option.mem_toList.mpr same, rfl⟩)

theorem payload?_steps_handed {steps : List Step} {host : Host}
    (once : ((Step.handed steps).map Prod.fst).Nodup)
    (known : ∀ id ∈ Step.receivers steps, (host.payload? id).isSome)
    {pair : InstanceId × Payload} (handed : pair ∈ Step.handed steps) :
    (steps.foldl runStep host).payload? pair.1 = some pair.2 := by
  induction steps generalizing host with
  | nil => simp at handed
  | cons step rest ih =>
      simp only [Step.handed_cons, List.map_append, List.mem_append, Step.receivers_cons]
        at once known handed
      obtain ⟨-, later, apart⟩ := List.nodup_append.mp once
      rw [List.foldl_cons]
      rcases handed with now | afterwards
      · rw [Option.mem_toList] at now
        have here : (host.runStep step).payload? pair.1 = some pair.2 :=
          payload?_runStep_handed now fun receives =>
            known pair.1 (.inl (Option.mem_toList.mpr receives))
        rw [payload?_steps, here]
        intro again
        exact apart pair.1 (List.mem_map.mpr ⟨pair, Option.mem_toList.mpr now, rfl⟩) pair.1 again rfl
      · exact ih later (fun id received => isSome_payload?_runStep step (known id (.inr received)))
          afterwards

theorem payload?_effects (effects : List Effect) {host : Host} (named : host.Named) :
    (effects.foldl runEffect host).payload? = host.payload? := by
  induction effects generalizing host with
  | nil => rfl
  | cons effect rest ih =>
      rw [List.foldl_cons, ih (named.runEffect effect)]
      cases effect with
      | attachRef id handle => exact payload?_congr (CalledBack.attachRef id (.host handle) host).instances
      | didMount id => exact payload?_didMount named id

/-! ## Steps that repeat -/

/-- Does a step do again what has been done? Handles may be written. -/
def Repeats (host : Host) : Step → Prop
  | .syncHandle _ _ => True
  | .receive id payload => host.payload? id = some payload
  | .declare site spine =>
      ∀ declaration ∈ spine.declarations site.path, host.HasDeclared site.context declaration
  | .createHandle .. | .detachRef _ | .willUnmount _ | .release _ | .instantiate .. => False

/-- A step that repeats touches the objects only. -/
theorem runStep_of_repeats {host : Host} (instances : host.instances.IsBounded)
    (sessions : host.sessions.IsBounded) {step : Step} (repeats : host.Repeats step) :
    ∃ objects, host.runStep step = { host with objects := objects } ∧
      host.objects.Kept objects := by
  cases step with
  | syncHandle handle props => exact ⟨_, rfl, .modifyElement _ _ _⟩
  | receive id payload =>
      obtain ⟨state, found, rfl⟩ := Option.map_eq_some_iff.mp repeats
      have same : host.instances.modify id (fun other => { other with payload := state.payload }) =
          host.instances := by
        rw [Numbered.modify, found]
        exact Numbered.put_of_get? instances found
      refine ⟨host.objects, ?_, .refl _⟩
      rw [runStep, setPayload, modifyInstance, same]
  | declare site spine =>
      exact ⟨host.objects, declareAll_of_hasDeclared sessions repeats, .refl _⟩
  | createHandle | detachRef | willUnmount | release | instantiate => exact repeats.elim

theorem steps_of_repeats {steps : List Step} {host : Host} (instances : host.instances.IsBounded)
    (sessions : host.sessions.IsBounded) (repeats : ∀ step ∈ steps, host.Repeats step) :
    ∃ objects, steps.foldl runStep host = { host with objects := objects } ∧
      host.objects.Kept objects := by
  induction steps generalizing host with
  | nil => exact ⟨host.objects, rfl, .refl _⟩
  | cons step rest ih =>
      obtain ⟨here, there⟩ := List.forall_mem_cons.mp repeats
      obtain ⟨objects, same, kept⟩ := runStep_of_repeats instances sessions here
      -- Whether a step repeats does not depend on the objects.
      have still : ∀ step ∈ rest, Repeats { host with objects := objects } step := by
        intro step among
        have before := there step among
        cases step with
        | declare site spine =>
            intro declaration declared
            cases declaration <;> exact before _ declared
        | syncHandle | receive | createHandle | detachRef | willUnmount | release | instantiate =>
            exact before
      obtain ⟨objects', same', kept'⟩ :=
        @ih { host with objects := objects } instances sessions still
      exact ⟨objects', by rw [List.foldl_cons, same, same'], kept.trans kept'⟩

end Host

end RemoteView
