import RemoteView.Proofs.Mounted.Reckoning

/-! # The turnover of instances

What reconciling does to component instances, as a balance: what is there afterwards and what was
unmounted are together what was there before and what was instantiated. Everything unmounted is
released, everything instantiated is told that it is mounted, each once, and payloads are handed to
instances only that stay. Balances of parts add up, so the balance of a tree is found by induction.
-/

namespace RemoteView

namespace Step

/-- The instance that a step creates. -/
@[simp] def instantiated? : Step → Option Instance
  | .instantiate identity _ => some identity
  | _ => none

/-- The instance that a step hands a payload to. -/
@[simp] def receiver? : Step → Option InstanceId
  | .receive id _ => some id
  | _ => none

@[simp] def unmounted? : Step → Option InstanceId
  | .willUnmount id => some id
  | _ => none

/-- The instance that a step lets go of. -/
@[simp] def released? : Step → Option InstanceId
  | .release id => some id
  | _ => none

/-- The instances that steps create. -/
def instantiations (steps : List Step) : List Instance := steps.filterMap instantiated?

/-- The instances that steps hand a payload to. -/
def receivers (steps : List Step) : List InstanceId := steps.filterMap receiver?

def unmounts (steps : List Step) : List InstanceId := steps.filterMap unmounted?

/-- The instances that steps let go of. -/
def releases (steps : List Step) : List InstanceId := steps.filterMap released?

@[simp] theorem instantiations_nil : instantiations [] = [] := rfl

@[simp] theorem instantiations_cons (step : Step) (rest : List Step) :
    instantiations (step :: rest) = step.instantiated?.toList ++ instantiations rest := by
  cases step <;> rfl

@[simp] theorem instantiations_append (left right : List Step) :
    instantiations (left ++ right) = instantiations left ++ instantiations right :=
  List.filterMap_append

@[simp] theorem receivers_nil : receivers [] = [] := rfl

@[simp] theorem receivers_cons (step : Step) (rest : List Step) :
    receivers (step :: rest) = step.receiver?.toList ++ receivers rest := by
  cases step <;> rfl

@[simp] theorem receivers_append (left right : List Step) :
    receivers (left ++ right) = receivers left ++ receivers right :=
  List.filterMap_append

@[simp] theorem unmounts_nil : unmounts [] = [] := rfl

@[simp] theorem unmounts_cons (step : Step) (rest : List Step) :
    unmounts (step :: rest) = step.unmounted?.toList ++ unmounts rest := by
  cases step <;> rfl

@[simp] theorem unmounts_append (left right : List Step) :
    unmounts (left ++ right) = unmounts left ++ unmounts right :=
  List.filterMap_append

@[simp] theorem releases_nil : releases [] = [] := rfl

@[simp] theorem releases_cons (step : Step) (rest : List Step) :
    releases (step :: rest) = step.released?.toList ++ releases rest := by
  cases step <;> rfl

@[simp] theorem releases_append (left right : List Step) :
    releases (left ++ right) = releases left ++ releases right :=
  List.filterMap_append

theorem mem_instantiations {steps : List Step} {identity : Instance} :
    identity ∈ instantiations steps ↔ ∃ payload, .instantiate identity payload ∈ steps := by
  rw [instantiations, List.mem_filterMap]
  constructor
  · rintro ⟨step, member, isThis⟩
    cases step <;> simp_all
    exact ⟨_, member⟩
  · exact fun ⟨_, member⟩ => ⟨_, member, rfl⟩

theorem mem_unmounts {steps : List Step} {id : InstanceId} :
    id ∈ unmounts steps ↔ .willUnmount id ∈ steps := by
  rw [unmounts, List.mem_filterMap]
  constructor
  · rintro ⟨step, member, isThis⟩
    cases step <;> simp_all
  · exact fun member => ⟨_, member, rfl⟩

/-- Does a step only make or write handles, or take something down? -/
def TakesDown : Step → Prop
  | .createHandle .. | .syncHandle .. | .detachRef _ | .willUnmount _ | .release _ => True
  | .instantiate .. | .receive .. | .declare .. => False

theorem only_of_takesDown {steps : List Step} (down : ∀ step ∈ steps, step.TakesDown) :
    instantiations steps = [] ∧ receivers steps = [] := by
  constructor <;> refine List.filterMap_eq_nil_iff.mpr fun step member => ?_
  · cases step with
    | instantiate => exact (down _ member).elim
    | createHandle | syncHandle | detachRef | willUnmount | release | receive | declare => rfl
  · cases step with
    | receive => exact (down _ member).elim
    | createHandle | syncHandle | detachRef | willUnmount | release | instantiate | declare => rfl

end Step

namespace Effect

/-- The instance that an effect tells that it is mounted. -/
@[simp] def mounted? : Effect → Option InstanceId
  | .didMount id => some id
  | .attachRef _ _ => none

/-- The instances that effects tell that they are mounted. -/
def mounts (effects : List Effect) : List InstanceId := effects.filterMap mounted?

@[simp] theorem mounts_nil : mounts [] = [] := rfl

@[simp] theorem mounts_cons (first : Effect) (rest : List Effect) :
    mounts (first :: rest) = first.mounted?.toList ++ mounts rest := by
  cases first <;> rfl

@[simp] theorem mounts_append (left right : List Effect) :
    mounts (left ++ right) = mounts left ++ mounts right :=
  List.filterMap_append

theorem mem_mounts {effects : List Effect} {id : InstanceId} :
    id ∈ mounts effects ↔ .didMount id ∈ effects := by
  rw [mounts, List.mem_filterMap]
  constructor
  · rintro ⟨effect, member, isThis⟩
    cases effect <;> simp_all
  · exact fun member => ⟨_, member, rfl⟩

end Effect

/-- How the instances of a tree are turned over by steps and effects that render in a session, with
    numbers taken from `start` on, up to `finish`. -/
structure Turnover (session : SessionId) (start : Supply) (before after : List Instance)
    (steps : List Step) (effects : List Effect) (finish : Supply) : Prop where
  grows : start.nextInstance ≤ finish.nextInstance
  balance : ∀ n, (after.map Instance.id).count n + (Step.unmounts steps).count n =
    (before.map Instance.id).count n + ((Step.instantiations steps).map Instance.id).count n
  gone : ∀ n, (Step.unmounts steps).count n ≤ (before.map Instance.id).count n
  released : ∀ n, (Step.releases steps).count n = (Step.unmounts steps).count n
  mounted : ∀ n, (Effect.mounts effects).count n =
    ((Step.instantiations steps).map Instance.id).count n
  fresh : ∀ n, ((Step.instantiations steps).map Instance.id).count n ≤
    if start.nextInstance ≤ n ∧ n < finish.nextInstance then 1 else 0
  sessions : ∀ identity ∈ Step.instantiations steps, identity.session = session
  known : ∀ identity ∈ after, identity ∈ before ∨ identity ∈ Step.instantiations steps
  received : ∀ id ∈ Step.receivers steps, ∃ identity ∈ before,
    identity.id = id ∧ identity ∈ after ∧ identity.session = session

namespace Turnover

variable {session : SessionId} {start middle middle' finish : Supply}
  {before before' after after' : List Instance} {steps steps' : List Step}
  {effects effects' : List Effect}

theorem count_pos {list : List Instance} {identity : Instance} (member : identity ∈ list) :
    0 < (list.map Instance.id).count identity.id :=
  List.count_pos_iff.mpr (List.mem_map.mpr ⟨identity, member, rfl⟩)

theorem le_of_created (turnover : Turnover session start before after steps effects finish)
    {identity : Instance} (created : identity ∈ Step.instantiations steps) :
    start.nextInstance ≤ identity.id := by
  have counted := count_pos created
  have fresh := turnover.fresh identity.id
  split at fresh
  · rename_i range
    exact range.1
  · omega

theorem idle (instances : List Instance) (same : start.nextInstance = finish.nextInstance)
    (noUnmounts : Step.unmounts steps = []) (noReleases : Step.releases steps = [])
    (noInstances : Step.instantiations steps = []) (noReceivers : Step.receivers steps = [])
    (noMounts : Effect.mounts effects = []) :
    Turnover session start instances instances steps effects finish where
  grows := Nat.le_of_eq same
  balance n := by rw [noUnmounts, noInstances]; simp
  gone n := by rw [noUnmounts]; simp
  released n := by rw [noReleases, noUnmounts]
  mounted n := by rw [noMounts, noInstances]; simp
  fresh n := by rw [noInstances]; simp
  sessions identity created := by rw [noInstances] at created; simp at created
  known identity member := .inl member
  received id handed := by rw [noReceivers] at handed; simp at handed

theorem still (instances : List Instance) (supply : Supply) :
    Turnover session supply instances instances [] [] supply :=
  idle instances rfl rfl rfl rfl rfl rfl

/-- Balances add up, also when numbers were passed over in between. -/
theorem append_of_le (first : Turnover session start before after steps effects middle)
    (later : middle.nextInstance ≤ middle'.nextInstance)
    (second : Turnover session middle' before' after' steps' effects' finish) :
    Turnover session start (before ++ before') (after ++ after') (steps ++ steps')
      (effects ++ effects') finish where
  grows := Nat.le_trans first.grows (Nat.le_trans later second.grows)
  balance n := by
    have left := first.balance n
    have right := second.balance n
    simp only [Step.instantiations_append, Step.unmounts_append, List.map_append,
      List.count_append] at *
    omega
  gone n := by
    have left := first.gone n
    have right := second.gone n
    simp only [Step.unmounts_append, List.map_append, List.count_append] at *
    omega
  released n := by
    have left := first.released n
    have right := second.released n
    simp only [Step.releases_append, Step.unmounts_append, List.count_append] at *
    omega
  mounted n := by
    have left := first.mounted n
    have right := second.mounted n
    simp only [Step.instantiations_append, Effect.mounts_append, List.map_append,
      List.count_append] at *
    omega
  fresh n := by
    have left := first.fresh n
    have right := second.fresh n
    have order := first.grows
    have order' := second.grows
    simp only [Step.instantiations_append, List.map_append, List.count_append, InstanceId] at *
    split at left <;> split at right <;> split <;> omega
  sessions identity created := by
    rw [Step.instantiations_append, List.mem_append] at created
    exact created.elim (first.sessions identity) (second.sessions identity)
  known identity member := by
    simp only [Step.instantiations_append, List.mem_append]
    rcases List.mem_append.mp member with here | there
    · rcases first.known identity here with old | new
      · exact .inl (.inl old)
      · exact .inr (.inl new)
    · rcases second.known identity there with old | new
      · exact .inl (.inr old)
      · exact .inr (.inr new)
  received id handed := by
    rw [Step.receivers_append, List.mem_append] at handed
    rcases handed with here | there
    · obtain ⟨identity, old, named, new, same⟩ := first.received id here
      exact ⟨identity, List.mem_append_left _ old, named, List.mem_append_left _ new, same⟩
    · obtain ⟨identity, old, named, new, same⟩ := second.received id there
      exact ⟨identity, List.mem_append_right _ old, named, List.mem_append_right _ new, same⟩

theorem append (first : Turnover session start before after steps effects middle)
    (second : Turnover session middle before' after' steps' effects' finish) :
    Turnover session start (before ++ before') (after ++ after') (steps ++ steps')
      (effects ++ effects') finish :=
  first.append_of_le (Nat.le_refl _) second

theorem of_perm (turnover : Turnover session start before after steps effects finish)
    (sameBefore : before.Perm before') (sameAfter : after.Perm after')
    (sameEffects : effects.Perm effects') :
    Turnover session start before' after' steps effects' finish where
  grows := turnover.grows
  balance n := by
    rw [← (sameAfter.map Instance.id).count_eq, turnover.balance n,
      (sameBefore.map Instance.id).count_eq]
  gone n := by
    rw [← (sameBefore.map Instance.id).count_eq]
    exact turnover.gone n
  released := turnover.released
  mounted n := by
    rw [← turnover.mounted n]
    exact (sameEffects.filterMap Effect.mounted?).symm.count_eq n
  fresh := turnover.fresh
  sessions := turnover.sessions
  known identity member :=
    (turnover.known identity (sameAfter.mem_iff.mpr member)).imp_left sameBefore.mem_iff.mp
  received id handed := by
    obtain ⟨identity, old, named, new, same⟩ := turnover.received id handed
    exact ⟨identity, sameBefore.mem_iff.mp old, named, sameAfter.mem_iff.mp new, same⟩

end Turnover

namespace Mounted

theorem collects_instances : Collects instances childInstances := ⟨rfl, fun _ _ => rfl⟩

theorem childInstances_append (left right : List Mounted) :
    childInstances (left ++ right) = childInstances left ++ childInstances right :=
  collects_instances.append left right

theorem childInstances_eq_flatMap (trees : List Mounted) :
    childInstances trees = trees.flatMap instances :=
  collects_instances.eq_flatMap trees

theorem perm_childInstances {trees others : List Mounted} (same : trees.Perm others) :
    (childInstances trees).Perm (childInstances others) :=
  collects_instances.perm same

/-! ## Unmounting -/

mutual
theorem unmounts_unmount (tree : Mounted) :
    Step.unmounts tree.unmount = tree.instances.map Instance.id := by
  cases tree with
  | empty | text => rfl
  | element node children =>
      cases ref : node.props.ref? <;> simp [unmount, instances, ref, unmounts_unmountAll children]
  | component identity child => simp [unmount, instances, unmounts_unmount child]

theorem unmounts_unmountAll (trees : List Mounted) :
    Step.unmounts (unmountAll trees) = (childInstances trees).map Instance.id := by
  cases trees with
  | nil => rfl
  | cons tree rest =>
      simp [unmountAll, childInstances, unmounts_unmount tree, unmounts_unmountAll rest]
end

mutual
/-- Everything that is unmounted is released, inner instances first. -/
theorem perm_releases_unmount (tree : Mounted) :
    (Step.releases tree.unmount).Perm (tree.instances.map Instance.id) := by
  cases tree with
  | empty | text => exact .nil
  | element node children =>
      cases ref : node.props.ref? <;>
        simpa [unmount, instances, ref] using perm_releases_unmountAll children
  | component identity child =>
      simp only [unmount, instances, List.map_cons, Step.releases_cons, Step.releases_append,
        Step.released?, Step.releases_nil, Option.toList_none, Option.toList_some,
        List.nil_append, List.append_nil]
      exact (List.perm_append_singleton _ _).trans ((perm_releases_unmount child).cons _)

theorem perm_releases_unmountAll (trees : List Mounted) :
    (Step.releases (unmountAll trees)).Perm ((childInstances trees).map Instance.id) := by
  cases trees with
  | nil => exact .nil
  | cons tree rest =>
      simpa [unmountAll, childInstances] using
        (perm_releases_unmount tree).append (perm_releases_unmountAll rest)
end

mutual
theorem takesDown_unmount (tree : Mounted) : ∀ step ∈ tree.unmount, step.TakesDown := by
  cases tree with
  | empty | text => simp [unmount]
  | element node children =>
      intro step member
      rcases List.mem_append.mp member with detached | inside
      · obtain ⟨id, -, rfl⟩ := Option.map_eq_some_iff.mp (Option.mem_toList.mp detached)
        trivial
      · exact takesDown_unmountAll children step inside
  | component identity child =>
      intro step member
      simp only [unmount, List.mem_cons, List.mem_append, List.not_mem_nil, or_false] at member
      rcases member with rfl | inside | rfl
      · trivial
      · exact takesDown_unmount child step inside
      · trivial

theorem takesDown_unmountAll (trees : List Mounted) :
    ∀ step ∈ unmountAll trees, step.TakesDown := by
  cases trees with
  | nil => simp [unmountAll]
  | cons tree rest =>
      intro step member
      rcases List.mem_append.mp member with here | there
      · exact takesDown_unmount tree step here
      · exact takesDown_unmountAll rest step there
end

theorem unmount_only (tree : Mounted) :
    Step.instantiations tree.unmount = [] ∧ Step.receivers tree.unmount = [] :=
  Step.only_of_takesDown (takesDown_unmount tree)

theorem unmountAll_only (trees : List Mounted) :
    Step.instantiations (unmountAll trees) = [] ∧ Step.receivers (unmountAll trees) = [] :=
  Step.only_of_takesDown (takesDown_unmountAll trees)

end Mounted

namespace Turnover

variable {session : SessionId} {start finish : Supply}

theorem leave {before : List Instance} {steps : List Step}
    (unmounts : Step.unmounts steps = before.map Instance.id)
    (releases : (Step.releases steps).Perm (before.map Instance.id))
    (only : Step.instantiations steps = [] ∧ Step.receivers steps = []) :
    Turnover session start before [] steps [] start where
  grows := Nat.le_refl _
  balance n := by simp [unmounts, only]
  gone n := Nat.le_of_eq (by rw [unmounts])
  released n := by rw [unmounts, releases.count_eq]
  mounted n := by simp [only]
  fresh n := by simp [only]
  sessions identity created := by simp [only] at created
  known identity member := by simp at member
  received id handed := by simp [only] at handed

theorem unmount (tree : Mounted) : Turnover session start tree.instances [] tree.unmount [] start :=
  leave (Mounted.unmounts_unmount tree) (Mounted.perm_releases_unmount tree)
    (Mounted.unmount_only tree)

theorem unmountAll (trees : List Mounted) :
    Turnover session start (Mounted.childInstances trees) [] (Mounted.unmountAll trees) [] start :=
  leave (Mounted.unmounts_unmountAll trees) (Mounted.perm_releases_unmountAll trees)
    (Mounted.unmountAll_only trees)

/-! ## Mounting -/

theorem enter (identity : Instance) (payload : Payload) (site : Site) (spine : Spine)
    (numbered : identity.id = start.nextInstance) (here : identity.session = session) :
    Turnover session start [] [identity]
      [.instantiate identity payload, .declare site spine] [.didMount identity.id]
      { start with nextInstance := start.nextInstance + 1 } where
  grows := Nat.le_succ _
  balance n := by simp
  gone n := by simp
  released n := by simp
  mounted n := by simp
  fresh n := by
    simp only [Step.instantiations_cons, Step.instantiated?, Step.instantiations_nil,
      Option.toList_some, Option.toList_none, List.append_nil, List.map_cons,
      List.map_nil, List.count_singleton, numbered, InstanceId, beq_iff_eq]
    split <;> split <;> omega
  sessions other created := by
    obtain rfl : other = identity := by simpa using created
    exact here
  known other member := .inr (by simpa using member)
  received id handed := by simp at handed

theorem create (session : SessionId) (start : Supply) (handle : ObjectId) (tag : String)
    (props : Props) (instances : List Instance) :
    Turnover session start instances instances [.createHandle handle tag props] []
      { start with nextObject := start.nextObject + 1 } :=
  idle instances rfl rfl rfl rfl rfl rfl

theorem write (session : SessionId) (start : Supply) (ref : Option RefId) (handle : ObjectId)
    (props : Props) (instances : List Instance) :
    Turnover session start instances instances
      (Mounted.detachments ref ++ [.syncHandle handle props]) [] start := by
  cases ref <;> exact idle instances rfl rfl rfl rfl rfl rfl

theorem keep (start : Supply) (identity : Instance) (payload : Payload) (site : Site)
    (spine : Spine) :
    Turnover identity.session start [identity] [identity]
      [.receive identity.id payload, .declare site spine] [] start where
  grows := Nat.le_refl _
  balance n := by simp
  gone n := by simp
  released n := by simp
  mounted n := by simp
  fresh n := by simp
  sessions other created := by simp at created
  known other member := .inl member
  received id handed := by
    obtain rfl : id = identity.id := by simpa using handed
    exact ⟨identity, List.mem_singleton_self _, rfl, List.mem_singleton_self _, rfl⟩

theorem attach (ref : Option RefId) (handle : ObjectId) (instances : List Instance) :
    Turnover session start instances instances [] (Mounted.attachments ref handle) start := by
  cases ref <;> exact idle instances rfl rfl rfl rfl rfl rfl

end Turnover

namespace Mounted

theorem mount_turnover :
    MountInduction
      (fun site _ supply outcome => Turnover site.context.session supply [] outcome.value.instances
        outcome.steps outcome.effects outcome.supply)
      (fun site _ supply outcome => Turnover site.context.session supply []
        (childInstances outcome.value) outcome.steps outcome.effects outcome.supply) where
  empty _ _ := .still [] _
  text _ _ _ := .still [] _
  element site tag _ attributes supply inner := by
    have created := Turnover.create site.context.session supply supply.nextObject tag
      (rendered site tag attributes supply.nextObject).props []
    simpa [instances] using (created.append inner).append (.attach _ _ [])
  component site id _ content behaviour supply inner := by
    have entered := Turnover.enter (newIdentity site supply.nextInstance id) ⟨content, behaviour⟩
      (newIdentity site supply.nextInstance id).site content rfl rfl
    exact (entered.append inner).of_perm .nil .rfl (List.perm_append_singleton _ _).symm
  nil _ _ := .still [] _
  cons _ _ _ _ _ first others := first.append others

theorem turnover_mount (site : Site) (spine : Spine) (supply : Supply) :
    let outcome := mount site spine supply
    Turnover site.context.session supply [] outcome.value.instances outcome.steps outcome.effects
      outcome.supply :=
  mount_turnover.mount site spine supply

theorem turnover_replace (site : Site) (old : Mounted) (spine : Spine) (supply : Supply) :
    let outcome := replace site old spine supply
    Turnover site.context.session supply old.instances outcome.value.instances outcome.steps
      outcome.effects outcome.supply := by
  simpa [replace_apply] using (Turnover.unmount old).append (turnover_mount site spine supply)

theorem reconcile_turnover :
    ReconcileInduction
      (fun site old _ supply outcome => Turnover site.context.session supply old.instances
        outcome.value.instances outcome.steps outcome.effects outcome.supply)
      (fun site matched children supply outcome => matched.length = children.length →
        Turnover site.context.session supply (childInstances (matched.filterMap id))
          (childInstances outcome.value) outcome.steps outcome.effects outcome.supply) where
  replace site old spine supply _ := turnover_replace site old spine supply
  empty _ _ := .still [] _
  text _ _ _ _ := .still [] _
  element site node oldChildren children attributes supply inner := by
    have all := perm_childInstances (Matching.perm_assign key oldChildren (childKeys children))
    rw [childInstances_append] at all
    have written := Turnover.write site.context.session supply
      (if node.props.ref? ≠ (rendered site node.tag attributes node.handle).props.ref? then
        node.props.ref? else none) node.handle
      (rendered site node.tag attributes node.handle).props []
    have turned := ((written.append (inner (by simp [childKeys]))).append
      (.unmountAll (Matching.assign key oldChildren (childKeys children)).2)).append
        (.attach (if node.props.ref? ≠ (rendered site node.tag attributes node.handle).props.ref?
          then (rendered site node.tag attributes node.handle).props.ref? else none) node.handle [])
    simpa [instances] using turned.of_perm (by simpa using all) .rfl .rfl
  component site identity old _ content behaviour supply same inner := by
    rw [← same]
    exact (Turnover.keep supply identity ⟨content, behaviour⟩ identity.site content).append inner
  nil site matched supply length := by
    obtain rfl := List.length_eq_zero_iff.mp length
    exact .still [] _
  kept _ _ _ _ _ _ _ first others length := first.append (others (by simpa using length))
  new site matched index child rest supply none others length := by
    obtain ⟨head, tail, rfl⟩ : ∃ head tail, matched = head :: tail :=
      List.exists_cons_of_length_eq_add_one length
    obtain rfl : head = Option.none := by simpa using none
    exact (turnover_mount (site.child index) child supply).append (others (by simpa using length))

/-- Reconciling turns the instances of the old tree into those of the new one. -/
theorem turnover_reconcile (site : Site) (old : Mounted) (spine : Spine) (supply : Supply) :
    let outcome := reconcile site old spine supply
    Turnover site.context.session supply old.instances outcome.value.instances outcome.steps
      outcome.effects outcome.supply :=
  reconcile_turnover.reconcile site old spine supply

theorem reconcileEach_turnover (site : Site) :
    EachInduction site fun pairs supply outcome =>
      Turnover site.context.session supply (childInstances ((pairs.map Prod.fst).filterMap id))
        (childInstances outcome.value) outcome.steps outcome.effects outcome.supply where
  nil _ := .still [] _
  new spine _ supply others := (turnover_mount site spine supply).append others
  kept old spine _ supply others := (turnover_reconcile site old spine supply).append others

theorem turnover_reconcileAll (site : Site) (old : List Mounted) (spines : List Spine)
    (supply : Supply) :
    let outcome := reconcileAll site old spines supply
    Turnover site.context.session supply (childInstances old) (childInstances outcome.value)
      outcome.steps outcome.effects outcome.supply := by
  rw [reconcileAll_apply]
  have all := perm_childInstances
    (Matching.perm_assign key old (spines.map (Spine.keyAt site.key)))
  rw [childInstances_append] at all
  have each := (reconcileEach_turnover site).each
    ((Matching.assign key old (spines.map (Spine.keyAt site.key))).1.zip spines) supply
  rw [List.map_fst_zip (by simp)] at each
  simpa using (each.append (.unmountAll _)).of_perm all .rfl .rfl

/-- Rendering other content in a component turns over what is inside it, and nothing else. -/
theorem rerender_turnover (id : InstanceId) (content : Spine) (session : SessionId) :
    RerenderInduction id content
      (fun tree supply outcome =>
        (∀ identity ∈ tree.instances, identity.id = id → identity.session = session) →
          Turnover session supply tree.instances outcome.value.instances outcome.steps
            outcome.effects outcome.supply)
      (fun trees supply outcome =>
        (∀ identity ∈ childInstances trees, identity.id = id → identity.session = session) →
          Turnover session supply (childInstances trees) (childInstances outcome.value)
            outcome.steps outcome.effects outcome.supply) where
  empty _ _ := .still [] _
  text _ _ _ := .still [] _
  element _ _ _ inner := inner
  here identity child supply named owned := by
    obtain rfl : identity.session = session := owned identity List.mem_cons_self named
    have declared : Turnover identity.session supply [identity] [identity]
        [.declare identity.site content] [] supply := .idle _ rfl rfl rfl rfl rfl rfl
    exact declared.append (turnover_reconcile identity.site child content supply)
  inside identity _ _ _ inner owned := by
    apply (Turnover.still [identity] _).append
    exact inner fun other member => owned other (List.mem_cons_of_mem _ member)
  nil _ _ := .still [] _
  first tree rest _ _ inner owned := by
    have turned := inner fun other member => owned other (List.mem_append_left _ member)
    simpa [childInstances] using turned.append (.still (childInstances rest) _)
  later tree _ _ _ inner owned := by
    apply (Turnover.still tree.instances _).append
    exact inner fun other member => owned other (List.mem_append_right _ member)

end Mounted

end RemoteView
