import RemoteView.Proofs.Host.CalledBack
import RemoteView.Proofs.Mounted.Turnover

/-! # How far instances come

What the steps and effects of a rendering do to an instance: it is created, it is mounted once, it
is unmounted once, and it is let go of. Payloads and window listeners are left aside, so that
nothing else that happens to the host matters.
-/

namespace RemoteView

/-- How far an instance has come, and whether a tree holds it. -/
structure Standing where
  identity : Instance
  phase : Phase
  isHeld : Bool
  deriving DecidableEq

def InstanceState.standing (state : InstanceState) : Standing :=
  ⟨state.identity, state.phase, state.isHeld⟩

namespace Standing

/-- An instance that was created is mounted. -/
def mount (standing : Standing) : Standing :=
  if standing.phase = .created then { standing with phase := .mounted } else standing

/-- An instance that is mounted is unmounted. -/
def unmount (standing : Standing) : Standing :=
  if standing.phase = .mounted then { standing with phase := .unmounted } else standing

def release (standing : Standing) : Standing := { standing with isHeld := false }

@[simp] theorem identity_mount (standing : Standing) :
    standing.mount.identity = standing.identity := by
  unfold mount
  split <;> rfl

@[simp] theorem identity_unmount (standing : Standing) :
    standing.unmount.identity = standing.identity := by
  unfold unmount
  split <;> rfl

@[simp] theorem identity_release (standing : Standing) :
    standing.release.identity = standing.identity := rfl

theorem ended {standing : Standing} (phase : standing.phase = .unmounted)
    (held : standing.isHeld = false) :
    standing.mount = standing ∧ standing.unmount = standing ∧ standing.release = standing := by
  cases standing
  simp_all [mount, unmount, release]

theorem mount_mount (standing : Standing) : standing.mount.mount = standing.mount := by
  unfold mount
  split
  · rfl
  · simp_all

theorem unmount_unmount (standing : Standing) : standing.unmount.unmount = standing.unmount := by
  unfold unmount
  split
  · rfl
  · simp_all

theorem release_release (standing : Standing) : standing.release.release = standing.release := rfl

theorem unmount_release (standing : Standing) :
    standing.release.unmount = standing.unmount.release := by
  unfold unmount release
  split <;> simp_all

end Standing

namespace Host

/-- How far the instance with a number has come. -/
def standing (host : Host) (id : InstanceId) : Option Standing :=
  (host.instances.get? id).map InstanceState.standing

theorem standing_of_get? {host : Host} {id : InstanceId} {state : InstanceState}
    (found : host.instances.get? id = some state) : host.standing id = some state.standing :=
  congrArg (Option.map InstanceState.standing) found

theorem standing_congr {before after : Host} (same : after.instances = before.instances) :
    after.standing = before.standing := by
  unfold standing
  rw [same]

theorem standing_modifyInstance (id : InstanceId) (change : InstanceState → InstanceState)
    (move : Standing → Standing)
    (moves : ∀ state, (change state).standing = move state.standing) (host : Host)
    (n : InstanceId) : (host.modifyInstance id change).standing n =
      if n = id then (host.standing n).map move else host.standing n := by
  simp only [standing, modifyInstance, Numbered.get?_modify]
  split
  · cases host.instances.get? n with
    | none => rfl
    | some state => simp [moves]
  · rfl

theorem standing_modifyInstance_same (id : InstanceId) (change : InstanceState → InstanceState)
    (same : ∀ state, (change state).standing = state.standing) (host : Host) :
    (host.modifyInstance id change).standing = host.standing := by
  funext n
  rw [standing_modifyInstance id change (fun standing => standing) same]
  split <;> simp

theorem standing_instantiate (identity : Instance) (payload : Payload) (host : Host)
    (n : InstanceId) : (host.instantiate identity payload).standing n =
      if n = identity.id then some ⟨identity, .created, true⟩ else host.standing n := by
  simp only [standing, instantiate, Numbered.get?_put]
  split <;> rfl

theorem standing_release (id : InstanceId) (host : Host) (n : InstanceId) :
    (host.release id).standing n =
      if n = id then (host.standing n).map Standing.release else host.standing n :=
  standing_modifyInstance id _ Standing.release (fun _ => rfl) host n

theorem standing_setPayload (id : InstanceId) (payload : Payload) (host : Host) :
    (host.setPayload id payload).standing = host.standing :=
  standing_modifyInstance_same id (fun state => { state with payload := payload })
    (fun _ => rfl) host

theorem instances_declare (context : ContextId) (host : Host) (declaration : Declaration) :
    (host.declare context declaration).instances = host.instances := by
  cases declaration <;> rfl

theorem instances_declareAll (site : Site) (spine : Spine) (host : Host) :
    (host.declareAll site spine).instances = host.instances := by
  unfold declareAll
  induction spine.declarations site.path generalizing host with
  | nil => rfl
  | cons declaration rest ih =>
      rw [List.foldl_cons, ih]
      exact instances_declare site.context host declaration

theorem registerMounted_eq (identity : Instance) (host : Host) :
    ∃ keys : List String, host.registerMounted identity = { host with
      sessions := host.sessions.modify identity.session fun session =>
        { session with mounted := Assoc.insert identity.path.key identity.id session.mounted }
      log := host.log ++ keys.map .replacingComponent } := by
  have silent : host.log = host.log ++ ([] : List String).map .replacingComponent :=
    (List.append_nil _).symm
  unfold registerMounted
  simp only
  split
  · split
    · exact ⟨[identity.path.key], rfl⟩
    · exact ⟨[], by rw [← silent]; rfl⟩
  · exact ⟨[], by rw [← silent]; rfl⟩

theorem instances_registerMounted (identity : Instance) (host : Host) :
    (host.registerMounted identity).instances = host.instances := by
  obtain ⟨_, same⟩ := registerMounted_eq identity host
  rw [same]

theorem standing_attachListener (identity : Instance) (host : Host) (declared : WindowListener) :
    (host.attachListener identity declared).standing = host.standing := by
  unfold attachListener
  simp only
  rw [standing_modifyInstance_same]
  · rfl
  · exact fun _ => rfl

theorem standing_didMount (id : InstanceId) (host : Host) (n : InstanceId) :
    (host.didMount id).standing n =
      if n = id then (host.standing n).map Standing.mount else host.standing n := by
  unfold didMount
  cases found : host.instances.get? id with
  | none =>
      have absent : host.standing id = none := by simp [standing, found]
      by_cases same : n = id
      · subst same
        simp [absent]
      · simp [same]
  | some state =>
      have present : host.standing id = some state.standing := by simp [standing, found]
      simp only
      by_cases created : state.phase = .created
      · rw [if_pos created]
        have attached (declared : List WindowListener) (host : Host) :
            (declared.foldl (attachListener state.identity) host).standing = host.standing := by
          induction declared generalizing host with
          | nil => rfl
          | cons first rest ih =>
              rw [List.foldl_cons, ih]
              exact standing_attachListener state.identity host first
        rw [attached, standing_congr (CalledBack.runHooks _ _ _).instances,
          standing_congr (instances_registerMounted _ _)]
        by_cases same : n = id
        · subst same
          simp [standing, modifyInstance, Numbered.get?_modify, found, InstanceState.standing,
            Standing.mount, created]
        · simp [standing, modifyInstance, Numbered.get?_modify, same]
      · rw [if_neg created]
        by_cases same : n = id
        · subst same
          simp [present, Standing.mount, InstanceState.standing, created]
        · simp [same]

theorem standing_willUnmount (id : InstanceId) (host : Host) (n : InstanceId) :
    (host.willUnmount id).standing n =
      if n = id then (host.standing n).map Standing.unmount else host.standing n := by
  rcases willUnmount_cases id host with ⟨state, found, mounted⟩ | ⟨not, unchanged⟩
  · rw [standing_congr (instances_willUnmount found mounted)]
    by_cases same : n = id
    · subst same
      simp [standing, modifyInstance, Numbered.get?_modify, found, InstanceState.standing,
        Standing.unmount, mounted]
    · simp [standing, modifyInstance, Numbered.get?_modify, same]
  · rw [unchanged]
    by_cases same : n = id
    · subst same
      -- What is not mounted stands as it did.
      cases found : host.instances.get? n with
      | none => simp [standing, found]
      | some state =>
          simp [standing, found, Standing.unmount, InstanceState.standing, not state found]
    · simp [same]

/-! ## Steps and effects -/

theorem standing_runStep (host : Host) (step : Step) (n : InstanceId)
    (old : ∀ identity ∈ step.instantiated?, identity.id ≠ n) :
    (host.runStep step).standing n = (host.standing n).map fun standing =>
      let standing := if step.unmounted? = some n then standing.unmount else standing
      if step.released? = some n then standing.release else standing := by
  cases step with
  | createHandle | syncHandle => simp [runStep, standing, Function.comp_def]
  | detachRef id =>
      rw [runStep, standing_congr (CalledBack.detachRef id host).instances]
      simp
  | willUnmount id =>
      rw [runStep, standing_willUnmount]
      by_cases same : n = id
      · simp [same]
      · simp [same, Ne.symm same]
  | release id =>
      rw [runStep, standing_release]
      by_cases same : n = id
      · simp [same]
      · simp [same, Ne.symm same]
  | instantiate identity payload =>
      have other : n ≠ identity.id := fun same => old identity rfl same.symm
      rw [runStep, standing_instantiate, if_neg other]
      simp
  | receive id payload =>
      rw [runStep, standing_setPayload]
      simp
  | declare site spine =>
      rw [runStep, standing_congr (instances_declareAll site spine host)]
      simp

theorem standing_steps (steps : List Step) (host : Host) (n : InstanceId)
    (old : n ∉ (Step.instantiations steps).map Instance.id) :
    (steps.foldl runStep host).standing n = (host.standing n).map fun standing =>
      let standing := if n ∈ Step.unmounts steps then standing.unmount else standing
      if n ∈ Step.releases steps then standing.release else standing := by
  induction steps generalizing host with
  | nil => simp
  | cons step rest ih =>
      simp only [Step.instantiations_cons, List.map_append, List.mem_append, not_or] at old
      rw [List.foldl_cons, ih _ old.2, standing_runStep host step n (by
        intro identity created same
        exact old.1 (List.mem_map.mpr ⟨identity, Option.mem_toList.mpr created, same⟩)),
        Option.map_map]
      congr 1
      funext standing
      by_cases unmounted : step.unmounted? = some n <;>
        by_cases released : step.released? = some n <;>
        by_cases later : n ∈ Step.unmounts rest <;>
        by_cases dropped : n ∈ Step.releases rest <;>
        simp [-Step.unmounted?, -Step.released?, unmounted, released, later, dropped,
          Standing.unmount_unmount, Standing.unmount_release, Standing.release_release]

/-- What holds after a step that creates no instance again holds after steps that create instances,
    each of them once and none that has been there. -/
theorem steps_of_new {P : Host → Prop} (keeps : ∀ host step, P host →
      (∀ identity ∈ step.instantiated?, host.instances.get? identity.id = none) →
        P (host.runStep step)) {steps : List Step} {host : Host} (holds : P host)
    (new : ∀ identity ∈ Step.instantiations steps, host.standing identity.id = none)
    (once : ((Step.instantiations steps).map Instance.id).Nodup) :
    P (steps.foldl runStep host) := by
  induction steps generalizing host with
  | nil => exact holds
  | cons step rest ih =>
      simp only [Step.instantiations_cons, List.map_append] at new once
      obtain ⟨-, later, apart⟩ := List.nodup_append.mp once
      have here : ∀ identity ∈ step.instantiated?, host.instances.get? identity.id = none := by
        intro identity created
        have absent := new identity (List.mem_append_left _ (Option.mem_toList.mpr created))
        simpa [standing] using absent
      apply ih (keeps host step holds here) _ later
      intro identity created
      -- The instance is not the one that this step creates.
      rw [standing_runStep host step identity.id, new identity (List.mem_append_right _ created)]
      · rfl
      · intro other isCreated same
        exact apart other.id (List.mem_map.mpr ⟨other, Option.mem_toList.mpr isCreated, rfl⟩)
          identity.id (List.mem_map.mpr ⟨identity, created, rfl⟩) same

theorem standing_steps_created {steps : List Step} {identity : Instance}
    (created : identity ∈ Step.instantiations steps)
    (once : ((Step.instantiations steps).map Instance.id).count identity.id ≤ 1)
    (kept : identity.id ∉ Step.unmounts steps) (held : identity.id ∉ Step.releases steps)
    (host : Host) :
    (steps.foldl runStep host).standing identity.id = some ⟨identity, .created, true⟩ := by
  obtain ⟨payload, member⟩ := Step.mem_instantiations.mp created
  obtain ⟨before, after, rfl⟩ := List.append_of_mem member
  simp only [Step.instantiations_append, Step.instantiations_cons, Step.instantiated?,
    Option.toList_some, List.map_append, List.map_cons, List.map_nil, List.count_append,
    List.count_singleton_self] at once
  simp only [Step.unmounts_append, Step.unmounts_cons, Step.releases_append, Step.releases_cons,
    List.mem_append, not_or] at kept held
  have later : identity.id ∉ (Step.instantiations after).map Instance.id := by
    rw [← List.count_eq_zero]
    omega
  rw [List.foldl_append, List.foldl_cons, standing_steps after _ _ later, runStep,
    standing_instantiate, if_pos rfl]
  simp [kept.2.2, held.2.2]

theorem standing_runEffect (host : Host) (effect : Effect) (n : InstanceId) :
    (host.runEffect effect).standing n =
      (host.standing n).map fun standing =>
        if effect.mounted? = some n then standing.mount else standing := by
  cases effect with
  | attachRef id handle =>
      rw [runEffect, standing_congr (CalledBack.attachRef id (.host handle) host).instances]
      simp
  | didMount id =>
      rw [runEffect, standing_didMount]
      by_cases same : n = id
      · simp [same]
      · simp [same, Ne.symm same]

theorem standing_effects (effects : List Effect) (host : Host) (n : InstanceId) :
    (effects.foldl runEffect host).standing n =
      (host.standing n).map fun standing =>
        if n ∈ Effect.mounts effects then standing.mount else standing := by
  induction effects generalizing host with
  | nil => simp
  | cons effect rest ih =>
      rw [List.foldl_cons, ih, standing_runEffect, Option.map_map]
      congr 1
      funext standing
      by_cases mounted : effect.mounted? = some n <;> by_cases later : n ∈ Effect.mounts rest <;>
        simp [-Effect.mounted?, mounted, later, Standing.mount_mount]

end Host

end RemoteView
