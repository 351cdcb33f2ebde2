import RemoteView.Proofs.Client.Rendering
import RemoteView.Proofs.Host.Sending
import RemoteView.Proofs.Host.Table

/-! # Sessions that are over

A session is over when another one or none is the current one and no instance of it is alive. Then
its callbacks do nothing, and it stays over: renderings create instances in other sessions only, and
send nothing in this one.
-/

namespace RemoteView

namespace Host

/-- A session lives as long as it is the current one or an instance of it is held. -/
theorem isSessionAlive_iff {host : Host} (distinct : (Assoc.keys host.instances.entries).Nodup)
    (session : SessionId) : host.isSessionAlive session = true ↔
      host.current = some session ∨ ∃ id standing, host.standing id = some standing ∧
        standing.isHeld = true ∧ standing.identity.session = session := by
  simp only [isSessionAlive, Bool.or_eq_true, decide_eq_true_eq, List.any_eq_true,
    Bool.and_eq_true]
  refine or_congr Iff.rfl ⟨?_, ?_⟩
  · rintro ⟨⟨id, state⟩, member, held, own⟩
    have found : host.instances.get? id = some state := Assoc.get?_of_mem distinct member
    exact ⟨id, state.standing, by simp [standing, found], held, own⟩
  · rintro ⟨id, stands, found, held, own⟩
    obtain ⟨state, stored, rfl⟩ := Option.map_eq_some_iff.mp found
    exact ⟨(id, state), Assoc.mem_of_get? stored, held, own⟩

/-! ## Callbacks of what has ended -/

theorem isContextAlive_of_dead {host : Host} {context : ContextId}
    (dead : host.isSessionAlive context.session = false) : host.isContextAlive context = false := by
  unfold isContextAlive
  rw [dead, Bool.false_and]

theorem fire_of_dead {host : Host} {id : ListenerId}
    (dead : host.isSessionAlive id.context.session = false) (event : Value) :
    host.fire id event = host := by
  unfold fire
  split
  · rfl
  · simp [dead]
  · simp [isContextAlive_of_dead dead]

theorem attachRef_of_dead {host : Host} {id : RefId}
    (dead : host.isSessionAlive id.context.session = false) (handle : Value) :
    host.attachRef id handle = host := by
  unfold attachRef
  split
  · rfl
  · simp [isContextAlive_of_dead dead]

theorem detachRef_of_dead {host : Host} {id : RefId}
    (dead : host.isSessionAlive id.context.session = false) : host.detachRef id = host := by
  unfold detachRef
  split
  · rfl
  · simp [isContextAlive_of_dead dead]

/-! ## Sessions are never taken back -/

theorem sessions_le_willUnmount (id : InstanceId) (host : Host) :
    host.sessions.next ≤ (host.willUnmount id).sessions.next := by
  rcases willUnmount_cases id host with ⟨state, found, mounted⟩ | ⟨-, same⟩
  · rw [(sessions_willUnmount found mounted).1]
    exact Numbered.next_le_modify _ _ _
  · exact Nat.le_of_eq (by rw [same])

theorem sessions_le_runStep (host : Host) (step : Step) :
    host.sessions.next ≤ (host.runStep step).sessions.next := by
  cases step with
  | createHandle | syncHandle | release | instantiate | receive => exact Nat.le_refl _
  | detachRef id => exact Nat.le_of_eq (by rw [runStep, (CalledBack.detachRef id host).sessions])
  | willUnmount id => exact sessions_le_willUnmount id host
  | declare site spine =>
      obtain ⟨contexts, styles, sessions, same, grown⟩ := declareAll_eq site spine host
      rw [runStep, same]
      exact grown

theorem sessions_le_runEffect (host : Host) (effect : Effect) :
    host.sessions.next ≤ (host.runEffect effect).sessions.next := by
  cases effect with
  | attachRef id handle =>
      exact Nat.le_of_eq (by rw [runEffect, (CalledBack.attachRef id (.host handle) host).sessions])
  | didMount id =>
      rw [runEffect]
      cases found : host.instances.get? id with
      | none => simp only [didMount, found, Nat.le_refl]
      | some state =>
          by_cases created : state.phase = .created
          · rw [(sessions_didMount found created).1, (sessions_registerMounted _ _).1]
            exact Numbered.next_le_modify _ _ _
          · simp only [didMount, found, if_neg created, Nat.le_refl]

/-! ## A session that is over stays so -/

/-- Another session or none is the current one, and no instance of this one is alive. -/
structure IsOver (session : SessionId) (host : Host) : Prop where
  opened : session < host.sessions.next
  current : host.current ≠ some session
  living : host.Living fun identity => identity.session ≠ session
  distinct : (Assoc.keys host.instances.entries).Nodup

namespace IsOver

variable {session : SessionId} {host after : Host}

theorem congr (isOver : IsOver session host) (instances : after.instances = host.instances)
    (sessions : host.sessions.next ≤ after.sessions.next)
    (current : after.current ≠ some session) : IsOver session after where
  opened := Nat.lt_of_lt_of_le isOver.opened sessions
  current := current
  living := isOver.living.congr instances
  distinct := by
    rw [instances]
    exact isOver.distinct

theorem isSessionAlive (isOver : IsOver session host) : host.isSessionAlive session = false := by
  rw [← Bool.not_eq_true, isSessionAlive_iff isOver.distinct]
  rintro (live | ⟨id, standing, found, held, own⟩)
  · exact isOver.current live
  · exact isOver.living id standing found (.inr held) own

theorem runStep (isOver : IsOver session host) (step : Step)
    (created : ∀ identity ∈ step.instantiated?, identity.session ≠ session) :
    IsOver session (host.runStep step) where
  opened := Nat.lt_of_lt_of_le isOver.opened (sessions_le_runStep host step)
  current := by
    rw [(Remembers.runStep host step).current]
    exact isOver.current
  living := isOver.living.runStep step created
  distinct := written_runStep (P := fun store => (Assoc.keys store.entries).Nodup)
    (fun _ number entry distinct => Numbered.nodup_put distinct number entry) isOver.distinct step

theorem runEffect (isOver : IsOver session host) (effect : Effect) :
    IsOver session (host.runEffect effect) where
  opened := Nat.lt_of_lt_of_le isOver.opened (sessions_le_runEffect host effect)
  current := by
    rw [(Remembers.runEffect host effect).current]
    exact isOver.current
  living := isOver.living.runEffect effect
  distinct := written_runEffect (P := fun store => (Assoc.keys store.entries).Nodup)
    (fun _ number entry distinct => Numbered.nodup_put distinct number entry) isOver.distinct effect

theorem sends_runStep (isOver : IsOver session host) (step : Step) :
    Sends (fun message => message.1 ≠ session) host (host.runStep step) := by
  refine (Host.sends_runStep isOver.living step).mono fun message => ?_
  rintro (⟨id, -, alive, own, -⟩ | ⟨identity, other, own, -⟩)
  · rintro rfl
    rw [isContextAlive_of_dead (by rw [← own]; exact isOver.isSessionAlive)] at alive
    cases alive
  · rwa [own]

theorem sends_runEffect (isOver : IsOver session host) (effect : Effect) :
    Sends (fun message => message.1 ≠ session) host (host.runEffect effect) := by
  refine (Host.sends_runEffect isOver.living effect).mono fun message => ?_
  rintro (⟨id, handle, -, alive, own, -⟩ | ⟨identity, other, own, -⟩)
  · rintro rfl
    rw [isContextAlive_of_dead (by rw [← own]; exact isOver.isSessionAlive)] at alive
    cases alive
  · rwa [own]

/-- A rendering that creates instances in other sessions only leaves it over, and silent. -/
theorem runDeeds (deeds : List Deed) (isOver : IsOver session host)
    (created : ∀ identity ∈ Deed.instantiations deeds, identity.session ≠ session) :
    IsOver session (deeds.foldl runDeed host) ∧
      Sends (fun message => message.1 ≠ session) host (deeds.foldl runDeed host) := by
  induction deeds generalizing host with
  | nil => exact ⟨isOver, .refl host⟩
  | cons deed rest ih =>
      cases deed with
      | step step =>
          have split : Deed.instantiations (.step step :: rest) =
              step.instantiated?.toList ++ Deed.instantiations rest := Step.instantiations_cons _ _
          rw [split] at created
          have stepped := isOver.runStep step fun identity isCreated =>
            created identity (List.mem_append_left _ (Option.mem_toList.mpr isCreated))
          obtain ⟨still, silent⟩ := ih stepped fun identity isCreated =>
            created identity (List.mem_append_right _ isCreated)
          exact ⟨still, (isOver.sends_runStep step).trans silent⟩
      | effect effect =>
          obtain ⟨still, silent⟩ := ih (isOver.runEffect effect) created
          exact ⟨still, (isOver.sends_runEffect effect).trans silent⟩

end IsOver

end Host

end RemoteView
