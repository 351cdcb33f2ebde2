import Mathlib.Data.List.Nodup
import RemoteView.Proofs.Host.Standing

/-! # Settled hosts

Between renderings every instance that the trees hold is mounted and held, and every other one is
unmounted and let go of. A rendering that turns the instances of the trees over takes a settled host
to a settled host, and says of every instance which of the two it has become.
-/

namespace RemoteView

namespace Host

/-- Instances are known by the numbers that they have. -/
def Named (host : Host) : Prop :=
  ∀ id standing, host.standing id = some standing → standing.identity.id = id

namespace Named

theorem congr {host after : Host} (named : host.Named) (same : after.instances = host.instances) :
    after.Named := by
  intro id standing found
  rw [standing_congr same] at found
  exact named id standing found

theorem modifyInstance {host : Host} (named : host.Named) (id : InstanceId)
    (change : InstanceState → InstanceState)
    (same : ∀ state, (change state).standing = state.standing) :
    (host.modifyInstance id change).Named := by
  intro n standing found
  rw [standing_modifyInstance_same id change same] at found
  exact named n standing found

theorem runStep {host : Host} (named : host.Named) (step : Step) : (host.runStep step).Named := by
  intro n standing found
  by_cases old : ∀ identity ∈ step.instantiated?, identity.id ≠ n
  · rw [standing_runStep host step n old, Option.map_eq_some_iff] at found
    obtain ⟨was, stood, rfl⟩ := found
    have name := named n was stood
    simp only
    split <;> split <;> simpa using name
  · -- The step creates the instance with this number.
    cases step with
    | instantiate identity payload =>
        obtain rfl : identity.id = n := by simpa using old
        rw [Host.runStep, standing_instantiate, if_pos rfl, Option.some.injEq] at found
        rw [← found]
    | createHandle | syncHandle | detachRef | willUnmount | release | receive | declare =>
        simp at old

theorem runEffect {host : Host} (named : host.Named) (effect : Effect) :
    (host.runEffect effect).Named := by
  intro n standing found
  rw [standing_runEffect, Option.map_eq_some_iff] at found
  obtain ⟨was, stood, rfl⟩ := found
  have name := named n was stood
  split <;> simpa using name

theorem id_eq {host : Host} (named : host.Named) {id : InstanceId} {state : InstanceState}
    (found : host.instances.get? id = some state) : state.identity.id = id :=
  named id state.standing (standing_of_get? found)

end Named

theorem Named.get?_of_mountedAt {host : Host} (named : host.Named) {session : SessionId}
    {key : String} {state : InstanceState} (mounted : host.mountedAt session key = some state) :
    host.instances.get? state.identity.id = some state := by
  simp only [mountedAt, Option.bind_eq_bind, Option.bind_eq_some_iff] at mounted
  obtain ⟨_, -, id, -, found, stored, held⟩ := mounted
  split at held
  · obtain rfl := Option.some.inj held
    rw [named.id_eq stored]
    exact stored
  · simp at held

/-- The instances with these identities are those of the trees, and the only ones that are alive. -/
structure Settled (host : Host) (trees : List Instance) : Prop where
  distinct : (trees.map Instance.id).Nodup
  present : ∀ identity ∈ trees, host.standing identity.id = some ⟨identity, .mounted, true⟩
  named : host.Named
  absent : ∀ id standing, host.standing id = some standing → standing.identity ∉ trees →
    standing.phase = .unmounted ∧ standing.isHeld = false
  bounded : host.instances.IsBounded

namespace Settled

variable {host after : Host} {trees : List Instance}

theorem empty : Settled .empty [] where
  distinct := List.nodup_nil
  present identity member := by simp at member
  named id _ found := by simp [Host.standing, Host.empty, Numbered.get?, Numbered.empty] at found
  absent id _ found := by simp [Host.standing, Host.empty, Numbered.get?, Numbered.empty] at found
  bounded := Numbered.isBounded_empty

theorem congr (settled : host.Settled trees) (same : after.instances = host.instances) :
    after.Settled trees where
  distinct := settled.distinct
  present identity member := by
    rw [standing_congr same]
    exact settled.present identity member
  named id standing found := by
    rw [standing_congr same] at found
    exact settled.named id standing found
  absent id standing found := by
    rw [standing_congr same] at found
    exact settled.absent id standing found
  bounded := by
    rw [same]
    exact settled.bounded

theorem modifyInstance (settled : host.Settled trees) (id : InstanceId)
    (change : InstanceState → InstanceState)
    (same : ∀ state, (change state).standing = state.standing) :
    (host.modifyInstance id change).Settled trees where
  distinct := settled.distinct
  present identity member := by
    rw [standing_modifyInstance_same id change same]
    exact settled.present identity member
  named id' standing found := by
    rw [standing_modifyInstance_same id change same] at found
    exact settled.named id' standing found
  absent id' standing found := by
    rw [standing_modifyInstance_same id change same] at found
    exact settled.absent id' standing found
  bounded := settled.bounded.modify id change

section

variable {id : InstanceId} {state : InstanceState}

theorem standing_eq (settled : host.Settled trees) (found : host.instances.get? id = some state)
    (member : state.identity ∈ trees) : state.standing = ⟨state.identity, .mounted, true⟩ := by
  have present := settled.present state.identity member
  rw [settled.named.id_eq found, standing_of_get? found] at present
  exact Option.some.inj present

theorem mem_of_mounted (settled : host.Settled trees)
    (found : host.instances.get? id = some state) (mounted : state.phase = .mounted) :
    state.identity ∈ trees := by
  refine Classical.byContradiction fun gone => ?_
  have ended := (settled.absent id state.standing (standing_of_get? found) gone).1
  cases mounted.symm.trans ended

theorem identity_eq (settled : host.Settled trees) (found : host.instances.get? id = some state)
    {identity : Instance} (member : identity ∈ trees) (same : identity.id = id) :
    state.identity = identity := by
  have present := settled.present identity member
  rw [same, standing_of_get? found] at present
  exact congrArg Standing.identity (Option.some.inj present)

end

theorem id_lt (settled : host.Settled trees) {identity : Instance} (member : identity ∈ trees) :
    identity.id < host.instances.next := by
  have standing := settled.present identity member
  obtain ⟨state, found, -⟩ := Option.map_eq_some_iff.mp standing
  exact settled.bounded identity.id state found

theorem eq_of_id (settled : host.Settled trees) {identity other : Instance}
    (member : identity ∈ trees) (member' : other ∈ trees) (same : identity.id = other.id) :
    identity = other := by
  have standing := settled.present identity member
  rw [same, settled.present other member', Option.some.injEq, Standing.mk.injEq] at standing
  exact standing.1.symm

theorem count_le_one (settled : host.Settled trees) (n : InstanceId) :
    (trees.map Instance.id).count n ≤ 1 :=
  List.nodup_iff_count.mp settled.distinct n

end Settled

/-! ## Instances are only written

Whatever writing an entry keeps true of the store of instances, renderings keep true.
-/

section Written

variable {P : Numbered InstanceState → Prop}
  (put : ∀ store number entry, P store → P (store.put number entry))

include put

theorem written_modify {store : Numbered InstanceState} (holds : P store) (number : Nat)
    (change : InstanceState → InstanceState) : P (store.modify number change) := by
  unfold Numbered.modify
  cases store.get? number with
  | none => exact holds
  | some entry => exact put store number (change entry) holds

theorem written_didMount {host : Host} (holds : P host.instances) (id : InstanceId) :
    P (host.didMount id).instances := by
  unfold didMount
  cases host.instances.get? id with
  | none => exact holds
  | some state =>
      simp only
      split
      · have attached (declared : List WindowListener) (host : Host) (holds : P host.instances) :
            P (declared.foldl (attachListener state.identity) host).instances := by
          induction declared generalizing host with
          | nil => exact holds
          | cons first rest ih => exact ih _ (written_modify put holds _ _)
        apply attached
        rw [(CalledBack.runHooks _ _ _).instances, instances_registerMounted]
        exact written_modify put holds id _
      · exact holds

theorem written_willUnmount {host : Host} (holds : P host.instances) (id : InstanceId) :
    P (host.willUnmount id).instances := by
  rcases willUnmount_cases id host with ⟨state, found, mounted⟩ | ⟨-, same⟩
  · rw [instances_willUnmount found mounted]
    exact written_modify put holds id _
  · rw [same]
    exact holds

theorem written_runStep {host : Host} (holds : P host.instances) (step : Step) :
    P (host.runStep step).instances := by
  cases step with
  | createHandle | syncHandle => exact holds
  | detachRef id =>
      rw [runStep, (CalledBack.detachRef id host).instances]
      exact holds
  | willUnmount id => exact written_willUnmount put holds id
  | release id => exact written_modify put holds id _
  | instantiate identity payload => exact put _ identity.id _ holds
  | receive id payload => exact written_modify put holds id _
  | declare site spine =>
      rw [runStep, instances_declareAll]
      exact holds

theorem written_runEffect {host : Host} (holds : P host.instances) (effect : Effect) :
    P (host.runEffect effect).instances := by
  cases effect with
  | attachRef id handle =>
      rw [runEffect, (CalledBack.attachRef id (.host handle) host).instances]
      exact holds
  | didMount id => exact written_didMount put holds id

theorem written_commit {α : Type} {host : Host} (holds : P host.instances)
    (outcome : Outcome α) : P (host.commit outcome).instances := by
  have stepped (steps : List Step) (host : Host) (holds : P host.instances) :
      P (steps.foldl runStep host).instances := by
    induction steps generalizing host with
    | nil => exact holds
    | cons step rest ih => exact ih _ (written_runStep put holds step)
  have effected (effects : List Effect) (host : Host) (holds : P host.instances) :
      P (effects.foldl runEffect host).instances := by
    induction effects generalizing host with
    | nil => exact holds
    | cons effect rest ih => exact ih _ (written_runEffect put holds effect)
  exact effected outcome.effects _ (stepped outcome.steps host holds)

end Written

theorem standing_commit {α : Type} (host : Host) (outcome : Outcome α) (n : InstanceId) :
    (host.commit outcome).standing n =
      ((outcome.steps.foldl runStep host).standing n).map fun standing =>
        if n ∈ Effect.mounts outcome.effects then standing.mount else standing :=
  standing_effects outcome.effects _ n

theorem isBounded_commit {α : Type} {host : Host} (bounded : host.instances.IsBounded)
    (outcome : Outcome α) : (host.commit outcome).instances.IsBounded :=
  written_commit (fun _ number entry bounded => bounded.put number entry) bounded outcome

theorem next_le_commit {α : Type} (host : Host) (outcome : Outcome α) :
    host.instances.next ≤ (host.commit outcome).instances.next :=
  written_commit (fun _ _ _ below => Nat.le_trans below (Nat.le_max_left _ _)) (Nat.le_refl _)
    outcome

end Host

namespace Turnover

variable {host : Host} {session : SessionId} {before after : List Instance} {steps : List Step}
  {effects : List Effect} {finish : Supply}

theorem count_old (turnover : Turnover session host.supply before after steps effects finish)
    {n : InstanceId} (old : n < host.instances.next) :
    ((Step.instantiations steps).map Instance.id).count n = 0 := by
  rw [List.count_eq_zero]
  intro member
  obtain ⟨identity, created, rfl⟩ := List.mem_map.mp member
  exact Nat.not_le_of_lt old (turnover.le_of_created created)

theorem count_new (settled : host.Settled before) {n : InstanceId}
    (new : host.instances.next ≤ n) : (before.map Instance.id).count n = 0 := by
  rw [List.count_eq_zero]
  intro member
  obtain ⟨identity, there, rfl⟩ := List.mem_map.mp member
  exact Nat.not_le_of_lt (settled.id_lt there) new

/-- The number of an instance that was there is never given to another one. -/
theorem mem_of_id (turnover : Turnover session host.supply before after steps effects finish)
    (settled : host.Settled before) {identity : Instance} (member : identity ∈ before)
    (still : identity.id ∈ after.map Instance.id) : identity ∈ after := by
  obtain ⟨other, there, same⟩ := List.mem_map.mp still
  rcases turnover.known other there with old | created
  · rw [← settled.eq_of_id old member same]
    exact there
  · have new := turnover.le_of_created created
    rw [same] at new
    exact absurd (settled.id_lt member) (Nat.not_lt_of_le new)

theorem kept (turnover : Turnover session host.supply before after steps effects finish)
    (settled : host.Settled before) {identity : Instance} (member : identity ∈ before)
    (still : identity ∈ after) :
    (Effect.mounts effects).count identity.id = 0 ∧ (Step.unmounts steps).count identity.id = 0 := by
  have old := turnover.count_old (settled.id_lt member)
  have once := settled.count_le_one identity.id
  have there := count_pos still
  have balance := turnover.balance identity.id
  have mounted := turnover.mounted identity.id
  omega

theorem left (turnover : Turnover session host.supply before after steps effects finish)
    (settled : host.Settled before) {identity : Instance} (member : identity ∈ before)
    (gone : identity ∉ after) :
    (Effect.mounts effects).count identity.id = 0 ∧
      (Step.unmounts steps).count identity.id = 1 ∧ (Step.releases steps).count identity.id = 1 := by
  have old := turnover.count_old (settled.id_lt member)
  have once := settled.count_le_one identity.id
  have there := count_pos member
  have absent : (after.map Instance.id).count identity.id = 0 := by
    rw [List.count_eq_zero]
    exact fun still => gone (turnover.mem_of_id settled member still)
  have balance := turnover.balance identity.id
  have mounted := turnover.mounted identity.id
  have released := turnover.released identity.id
  omega

theorem nodup_instantiations
    (turnover : Turnover session host.supply before after steps effects finish) :
    ((Step.instantiations steps).map Instance.id).Nodup := by
  rw [List.nodup_iff_count]
  intro n
  have fresh := turnover.fresh n
  split at fresh <;> omega

theorem standing_of_created (turnover : Turnover session host.supply before after steps effects finish)
    (settled : host.Settled before) {identity : Instance}
    (created : identity ∈ Step.instantiations steps) : host.standing identity.id = none := by
  have new := turnover.le_of_created created
  cases found : host.instances.get? identity.id with
  | none => simp [Host.standing, found]
  | some state => exact absurd (settled.bounded _ state found) (Nat.not_lt_of_le new)

/-- An instance that enters is instantiated and mounted once, and not unmounted. -/
theorem entered (turnover : Turnover session host.supply before after steps effects finish)
    (settled : host.Settled before) {identity : Instance}
    (created : identity ∈ Step.instantiations steps) :
    ((Step.instantiations steps).map Instance.id).count identity.id = 1 ∧
      (Effect.mounts effects).count identity.id = 1 ∧
      (Step.unmounts steps).count identity.id = 0 ∧
      (Step.releases steps).count identity.id = 0 ∧ identity ∈ after := by
  have new := count_new settled (turnover.le_of_created created)
  have counted := count_pos created
  have once := List.nodup_iff_count.mp turnover.nodup_instantiations identity.id
  have balance := turnover.balance identity.id
  have mounted := turnover.mounted identity.id
  have released := turnover.released identity.id
  have gone := turnover.gone identity.id
  refine ⟨by omega, by omega, by omega, by omega, ?_⟩
  have there : 0 < (after.map Instance.id).count identity.id := by omega
  obtain ⟨other, member, same⟩ := List.mem_map.mp (List.count_pos_iff.mp there)
  rcases turnover.known other member with old | alike
  · have := count_pos old
    rw [same] at this
    omega
  · rw [← List.inj_on_of_nodup_map turnover.nodup_instantiations alike created same]
    exact member

theorem distinct_after (turnover : Turnover session host.supply before after steps effects finish)
    (settled : host.Settled before) : (after.map Instance.id).Nodup := by
  rw [List.nodup_iff_count]
  intro n
  have balance := turnover.balance n
  have once := settled.count_le_one n
  have fresh := List.nodup_iff_count.mp turnover.nodup_instantiations n
  rcases Nat.lt_or_ge n host.instances.next with old | new
  · have := turnover.count_old old
    omega
  · have := count_new settled new
    omega

section

variable {α : Type} {outcome : Outcome α}

theorem present_commit
    (turnover : Turnover session host.supply before after outcome.steps outcome.effects finish)
    (settled : host.Settled before) {identity : Instance} (member : identity ∈ after) :
    (host.commit outcome).standing identity.id = some ⟨identity, .mounted, true⟩ := by
  rw [Host.standing_commit]
  rcases turnover.known identity member with old | created
  · obtain ⟨unmounted, stays⟩ := turnover.kept settled old member
    have released := turnover.released identity.id
    have created := turnover.count_old (settled.id_lt old)
    rw [Host.standing_steps _ _ _ (List.count_eq_zero.mp created), settled.present identity old]
    rw [stays] at released
    simp [List.count_eq_zero.mp unmounted, List.count_eq_zero.mp stays,
      List.count_eq_zero.mp released]
  · obtain ⟨once, mounted, kept, held, -⟩ := turnover.entered settled created
    rw [Host.standing_steps_created created (Nat.le_of_eq once) (List.count_eq_zero.mp kept)
      (List.count_eq_zero.mp held)]
    have member : identity.id ∈ Effect.mounts outcome.effects :=
      List.count_pos_iff.mp (by omega)
    simp [member, Standing.mount]

/-- What is not in the trees afterwards has kept its identity, and has ended. -/
theorem absent_commit
    (turnover : Turnover session host.supply before after outcome.steps outcome.effects finish)
    (settled : host.Settled before) {id : InstanceId} (gone : id ∉ after.map Instance.id)
    {found : Standing} (isFound : (host.commit outcome).standing id = some found) :
    found.identity.id = id ∧ found.phase = .unmounted ∧ found.isHeld = false := by
  have old : id ∉ (Step.instantiations outcome.steps).map Instance.id := by
    intro created
    obtain ⟨identity, isNew, rfl⟩ := List.mem_map.mp created
    exact gone (List.mem_map_of_mem (turnover.entered settled isNew).2.2.2.2)
  rw [Host.standing_commit, Host.standing_steps _ _ _ old, Option.map_map, Option.map_eq_some_iff]
    at isFound
  obtain ⟨was, stood, rfl⟩ := isFound
  have name := settled.named id was stood
  refine ⟨?_, ?_⟩
  · simp only [Function.comp_apply]
    split <;> split <;> split <;> simpa using name
  · by_cases member : was.identity ∈ before
    · -- It was in the trees, so it has been unmounted.
      have left : was.identity ∉ after := fun still =>
        gone (List.mem_map.mpr ⟨was.identity, still, name⟩)
      obtain ⟨unmounted, leaves, released⟩ := turnover.left settled member left
      have mounted : was = ⟨was.identity, .mounted, true⟩ := by
        have := settled.present was.identity member
        rwa [name, stood, Option.some.injEq] at this
      rw [name] at unmounted leaves released
      have left : id ∈ Step.unmounts outcome.steps := List.count_pos_iff.mp (by omega)
      have dropped : id ∈ Step.releases outcome.steps := List.count_pos_iff.mp (by omega)
      rw [mounted]
      simp [left, dropped, List.count_eq_zero.mp unmounted, Standing.unmount, Standing.release]
    · obtain ⟨phase, held⟩ := settled.absent id was stood member
      obtain ⟨mount, unmount, release⟩ := Standing.ended phase held
      simp [mount, unmount, release, phase, held]

/-- A settled host is settled again after the rendering. -/
theorem settled_commit
    (turnover : Turnover session host.supply before after outcome.steps outcome.effects finish)
    (settled : host.Settled before) : (host.commit outcome).Settled after where
  distinct := turnover.distinct_after settled
  present _ member := turnover.present_commit settled member
  named id found isFound := by
    by_cases there : id ∈ after.map Instance.id
    · obtain ⟨identity, member, rfl⟩ := List.mem_map.mp there
      rw [turnover.present_commit settled member, Option.some.injEq] at isFound
      rw [← isFound]
    · exact (turnover.absent_commit settled there isFound).1
  absent id found isFound gone := by
    refine (turnover.absent_commit settled (fun there => ?_) isFound).2
    obtain ⟨identity, member, rfl⟩ := List.mem_map.mp there
    rw [turnover.present_commit settled member, Option.some.injEq] at isFound
    rw [← isFound] at gone
    exact gone member
  bounded := Host.isBounded_commit settled.bounded outcome

end

end Turnover

end RemoteView
