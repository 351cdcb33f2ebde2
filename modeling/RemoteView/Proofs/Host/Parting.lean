import RemoteView.Proofs.Host.Sending

/-! # Instances that leave

What the steps of a rendering unmount, and what the hooks of these instances answer: every instance
is asked once, as it is when it leaves, and in the host that it leaves.
-/

namespace RemoteView

/-- Is a message what a hook answered? -/
def ClientMessage.isHook : ClientMessage → Bool
  | .hook .. => true
  | .location .. | .action .. | .ref .. | .event .. => false

/-- Who an instance is, and what it was given. -/
def InstanceState.given (state : InstanceState) : Instance × Payload :=
  (state.identity, state.payload)

namespace Host

/-- What hooks have answered, with the sessions in which it was sent. -/
def hooksSent (host : Host) : List (SessionId × ClientMessage) :=
  host.sent.filter fun message => message.2.isHook

/-- The instance that a step unmounts, with the host that it leaves. -/
def parting? (host : Host) : Step → Option (Host × InstanceState)
  | .willUnmount id => ((host.instances.get? id).filter (·.isMounted)).map (host, ·)
  | _ => none

/-- The instances that steps unmount, each as it is when it leaves, with the host that it leaves. -/
def partings : List Step → Host → List (Host × InstanceState)
  | [], _ => []
  | step :: rest, host => (host.parting? step).toList ++ partings rest (host.runStep step)

/-- What the hooks of an instance answer when it leaves. -/
def farewell (parting : Host × InstanceState) : List (SessionId × ClientMessage) :=
  hookMessages parting.2.identity parting.2.payload.behaviour.onUnmount parting.1

/-! ## What the hooks answer -/

theorem filter_hookMessages (identity : Instance) (hooks : List Expr) (host : Host) :
    (hookMessages identity hooks host).filter (fun message => message.2.isHook) =
      hookMessages identity hooks host := by
  refine List.filter_eq_self.mpr fun message member => ?_
  obtain ⟨-, answer, same⟩ := speaks_hookMessages identity hooks host message member
  rw [same]
  rfl

theorem hooksSent_of_sends {P : SessionId × ClientMessage → Prop} {before after : Host}
    (sends : Sends P before after) (none : ∀ message, P message → message.2.isHook = false) :
    after.hooksSent = before.hooksSent := by
  obtain ⟨messages, sent, spoken⟩ := sends
  have nothing : messages.filter (fun message => message.2.isHook) = [] :=
    List.filter_eq_nil_iff.mpr fun message member => by simp [none message (spoken message member)]
  rw [hooksSent, sent, List.filter_append, nothing, List.append_nil]
  rfl

theorem hooksSent_runStep (host : Host) (step : Step) :
    (host.runStep step).hooksSent =
      host.hooksSent ++ (host.parting? step).toList.flatMap farewell := by
  cases step with
  | createHandle | syncHandle | release | instantiate | receive =>
      exact (List.append_nil _).symm
  | declare site spine =>
      obtain ⟨contexts, styles, sessions, same, -⟩ := declareAll_eq site spine host
      rw [runStep, same]
      exact (List.append_nil _).symm
  | detachRef id =>
      refine (hooksSent_of_sends (sends_detachRef id host) ?_).trans (List.append_nil _).symm
      rintro message ⟨-, -, action, same⟩
      rw [same]
      rfl
  | willUnmount id =>
      rcases willUnmount_cases id host with ⟨state, found, mounted⟩ | ⟨not, same⟩
      · rw [runStep, hooksSent, sent_willUnmount found mounted, List.filter_append,
          filter_hookMessages]
        simp [parting?, found, InstanceState.isMounted, mounted, Option.filter_some, farewell,
          hooksSent]
      · have nobody : host.parting? (.willUnmount id) = none := by
          simpa [parting?, InstanceState.isMounted] using not
        rw [runStep, same, nobody]
        exact (List.append_nil _).symm

/-- Steps send what the hooks answer of the instances that leave, and no other hook speaks. -/
theorem hooksSent_steps (steps : List Step) (host : Host) :
    (steps.foldl runStep host).hooksSent =
      host.hooksSent ++ (partings steps host).flatMap farewell := by
  induction steps generalizing host with
  | nil => exact (List.append_nil _).symm
  | cons step rest ih =>
      rw [List.foldl_cons, ih, hooksSent_runStep, partings, List.flatMap_append, List.append_assoc]

/-! ## Who leaves is known before -/

theorem given_modifyInstance (id : InstanceId) (change : InstanceState → InstanceState)
    (same : ∀ state, (change state).given = state.given) (host : Host) (n : InstanceId) :
    ((host.modifyInstance id change).instances.get? n).map InstanceState.given =
      (host.instances.get? n).map InstanceState.given := by
  rw [modifyInstance, Numbered.get?_modify]
  split
  · cases host.instances.get? n with
    | none => rfl
    | some state => exact congrArg some (same state)
  · rfl

theorem given_runStep (host : Host) {step : Step} (down : step.TakesDown) (n : InstanceId) :
    ((host.runStep step).instances.get? n).map InstanceState.given =
      (host.instances.get? n).map InstanceState.given := by
  cases step with
  | createHandle | syncHandle => rfl
  | detachRef id => rw [runStep, (CalledBack.detachRef id host).instances]
  | release id => exact given_modifyInstance id ({ · with isHeld := false }) (fun _ => rfl) host n
  | willUnmount id =>
      rcases willUnmount_cases id host with ⟨state, found, mounted⟩ | ⟨-, same⟩
      · rw [runStep, instances_willUnmount found mounted]
        exact given_modifyInstance id ({ · with phase := .unmounted, attached := [] })
          (fun _ => rfl) host n
      · rw [runStep, same]
  | instantiate | receive | declare => exact down.elim

theorem of_parting {host : Host} {step : Step} {parting : Host × InstanceState}
    (named : host.Named) (leaves : host.parting? step = some parting) :
    parting.1 = host ∧ step = .willUnmount parting.2.identity.id ∧
      host.instances.get? parting.2.identity.id = some parting.2 ∧ parting.2.phase = .mounted := by
  cases step with
  | willUnmount id =>
      obtain ⟨state, stored, rfl⟩ := Option.map_eq_some_iff.mp leaves
      obtain ⟨found, mounted⟩ := Option.filter_eq_some_iff.mp stored
      have name : state.identity.id = id := named.id_eq found
      exact ⟨rfl, by rw [name], by rw [name]; exact found, by
        simpa [InstanceState.isMounted] using mounted⟩
  | createHandle | syncHandle | detachRef | release | instantiate | receive | declare => cases leaves

/-- Who leaves is mounted until then, and is what it was at the start, with its payload. -/
theorem given_of_parting {steps : List Step} {host : Host} (named : host.Named)
    (down : ∀ step ∈ steps, step.TakesDown) : ∀ parting ∈ partings steps host,
      parting.2.phase = .mounted ∧ ∃ state,
        host.instances.get? parting.2.identity.id = some state ∧
          state.identity = parting.2.identity ∧ state.payload = parting.2.payload := by
  induction steps generalizing host with
  | nil => simp [partings]
  | cons step rest ih =>
      obtain ⟨here, later⟩ := List.forall_mem_cons.mp down
      intro parting member
      rcases List.mem_append.mp member with now | afterwards
      · obtain ⟨rfl, -, found, mounted⟩ := of_parting named (Option.mem_toList.mp now)
        exact ⟨mounted, parting.2, found, rfl, rfl⟩
      · obtain ⟨mounted, state, stored, identity, payload⟩ :=
          ih (named.runStep step) later parting afterwards
        have kept := given_runStep host here parting.2.identity.id
        rw [stored, Option.map_some, eq_comm, Option.map_eq_some_iff] at kept
        obtain ⟨was, found, same⟩ := kept
        obtain ⟨sameIdentity, samePayload⟩ := Prod.mk.inj same
        exact ⟨mounted, was, found, sameIdentity.trans identity, samePayload.trans payload⟩

/-! ## Who leaves -/

theorem identities_partings {steps : List Step} {host : Host} (named : host.Named)
    (none : Step.instantiations steps = []) (once : (Step.unmounts steps).Nodup)
    (mounted : ∀ id ∈ Step.unmounts steps, ∃ standing, host.standing id = some standing ∧
      standing.phase = .mounted) :
    (partings steps host).map (fun parting => some parting.2.identity) =
      (Step.unmounts steps).map fun id => (host.standing id).map Standing.identity := by
  induction steps generalizing host with
  | nil => rfl
  | cons step rest ih =>
      rw [Step.instantiations_cons, List.append_eq_nil_iff] at none
      rw [Step.unmounts_cons, List.nodup_append] at once
      rw [Step.unmounts_cons] at mounted
      obtain ⟨-, later, apart⟩ := once
      have old : ∀ identity ∈ step.instantiated?, ∀ n, identity.id ≠ n := by
        rw [Option.toList_eq_nil_iff.mp none.1]
        exact fun _ created => nomatch created
      have stays (id : InstanceId) := standing_runStep host step id fun identity created =>
        old identity created id
      -- Those that leave later are left alone by this step, and nobody changes identity.
      have others := ih (named.runStep step) none.2 later fun id member => by
        obtain ⟨standing, stood, phase⟩ := mounted id (List.mem_append_right _ member)
        have other : step.unmounted? ≠ some id := fun same =>
          apart id (Option.mem_toList.mpr same) id member rfl
        refine ⟨_, by rw [stays, stood]; rfl, ?_⟩
        simp only [if_neg other]
        split <;> exact phase
      have identities (id : InstanceId) : ((host.runStep step).standing id).map Standing.identity =
          (host.standing id).map Standing.identity := by
        rw [stays, Option.map_map]
        congr 1
        funext standing
        simp only [Function.comp_apply]
        split <;> split <;> simp
      simp only [identities] at others
      rw [partings, List.map_append, others, Step.unmounts_cons, List.map_append]
      congr 1
      cases step with
      | willUnmount id =>
          obtain ⟨standing, stood, phase⟩ := mounted id (List.mem_append_left _ (by simp))
          obtain ⟨state, found, rfl⟩ := Option.map_eq_some_iff.mp stood
          have isMounted : state.phase = .mounted := phase
          simp [parting?, found, InstanceState.isMounted, isMounted, Option.filter_some,
            Host.standing, InstanceState.standing]
      | createHandle | syncHandle | detachRef | release | instantiate | receive | declare => rfl

end Host

/-- When nothing is left, every instance that was there leaves, and nobody else. -/
theorem Turnover.perm_partings {session : SessionId} {host : Host} {before : List Instance}
    {steps : List Step} {effects : List Effect} {finish : Supply}
    (turnover : Turnover session host.supply before [] steps effects finish)
    (settled : host.Settled before) (none : Step.instantiations steps = []) :
    ((Host.partings steps host).map fun parting => parting.2.identity).Perm before := by
  have unmounted : (Step.unmounts steps).Perm (before.map Instance.id) := by
    refine List.perm_iff_count.mpr fun n => ?_
    have balance := turnover.balance n
    simpa [none] using balance
  have identities := Host.identities_partings settled.named none
    (unmounted.nodup_iff.mpr settled.distinct) fun id member => by
      obtain ⟨identity, there, rfl⟩ := List.mem_map.mp (unmounted.mem_iff.mp member)
      exact ⟨_, settled.present identity there, rfl⟩
  have same : (before.map Instance.id).map (fun id => (host.standing id).map Standing.identity) =
      before.map some := by
    rw [List.map_map]
    refine List.map_congr_left fun identity member => ?_
    rw [Function.comp_apply, settled.present identity member]
    rfl
  have perm := unmounted.map fun id => (host.standing id).map Standing.identity
  rw [← identities, same] at perm
  have strip := perm.filterMap id
  simpa [List.filterMap_map, Function.comp_def] using strip

end RemoteView
