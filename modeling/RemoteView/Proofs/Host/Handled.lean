import RemoteView.Proofs.Host.Declared

/-! # Handles that the host knows

The handles of the trees are elements of the host, each once. What is stored under stable keys are
handles as well, and as long as a tree has one of them it is in the content that it was stored for.
-/

namespace RemoteView.Host

/-- The host knows the handles of the trees, and has stored each only for the content that it
    belongs to. -/
structure Handled (host : Host) (holdings : List Holding) : Prop where
  bounded : host.objects.IsBounded
  window : host.objects.kind? host.window = some .window
  once : (holdings.map Prod.fst).Nodup
  elements : ∀ holding ∈ holdings, host.objects.kind? holding.1 = some .element
  stored : ∀ context, ∀ entry ∈ (host.context context).handles, ∃ handle,
    entry.2 = .host handle ∧ host.objects.kind? handle = some .element ∧
      ∀ owner, (handle, owner) ∈ holdings → owner = context.instance?

namespace Handled

variable {host after : Host} {holdings others : List Holding}

theorem empty : Handled .empty [] where
  bounded := Numbered.isBounded_empty.put _ _
  window := rfl
  once := List.nodup_nil
  elements := by simp
  stored context entry member := by
    simp [Host.empty, Host.context, RenderContext.empty] at member

theorem of_kept (handled : Handled host holdings) (objects : host.objects.Kept after.objects)
    (window : after.window = host.window)
    (stored : ∀ context, (after.context context).handles ⊆ (host.context context).handles) :
    Handled after holdings where
  bounded := objects.bounded handled.bounded
  window := by
    rw [window]
    exact objects.kinds _ _ handled.window
  once := handled.once
  elements holding member := objects.kinds _ _ (handled.elements holding member)
  stored context entry member := by
    obtain ⟨handle, same, element, own⟩ := handled.stored context entry (stored context member)
    exact ⟨handle, same, objects.kinds _ _ element, own⟩

theorem of_stays (handled : Handled host holdings) (stays : Stays host after) :
    Handled after holdings :=
  handled.of_kept stays.objects.toKept stays.window stays.stored

theorem perm (handled : Handled host holdings) (same : holdings.Perm others) :
    Handled host others where
  bounded := handled.bounded
  window := handled.window
  once := (same.map Prod.fst).nodup_iff.mp handled.once
  elements holding member := handled.elements holding (same.mem_iff.mpr member)
  stored context entry member := by
    obtain ⟨handle, isHandle, element, own⟩ := handled.stored context entry member
    exact ⟨handle, isHandle, element, fun owner held => own owner (same.mem_iff.mpr held)⟩

theorem kind?_of_le (handled : Handled host holdings) {handle : ObjectId}
    (new : host.objects.next ≤ handle) : host.objects.kind? handle = none := by
  unfold Objects.kind?
  cases found : host.objects.get? handle with
  | none => rfl
  | some object =>
      exact absurd (handled.bounded handle object found) (Nat.not_lt.mpr new)

theorem lt_of_mem (handled : Handled host holdings) {holding : Holding}
    (member : holding ∈ holdings) : holding.1 < host.objects.next := by
  by_contra new
  have missing := handled.kind?_of_le (Nat.not_lt.mp new)
  rw [handled.elements holding member] at missing
  cases missing

end Handled

/-! ## Steps and effects -/

/-- What steps do to objects that were there at the start, when the handles that they create were
    not. -/
structure Stepped (start : Objects) (before after : Host) (steps : List Step) : Prop where
  objects : start.Kept after.objects
  window : after.window = before.window
  stored : ∀ context, (after.context context).handles ⊆ (before.context context).handles
  elements : ∀ handle, before.objects.kind? handle = some .element →
    after.objects.kind? handle = some .element
  created : ∀ step ∈ steps, ∀ handle, step.created? = some handle →
    after.objects.kind? handle = some .element

theorem stepped {start : Objects} {steps : List Step} {host : Host}
    (kept : start.Kept host.objects) (fresh : ∀ step ∈ steps, ∀ handle,
      step.created? = some handle → start.kind? handle = none) :
    Stepped start host (steps.foldl runStep host) steps := by
  induction steps generalizing host with
  | nil => exact ⟨kept, rfl, fun _ _ member => member, fun _ there => there, by simp⟩
  | cons step rest ih =>
      obtain ⟨here, later⟩ := List.forall_mem_cons.mp fresh
      have one : Stepped start host (host.runStep step) [step] := by
        cases made : step.created? with
        | none =>
            have stays := Stays.runStep host made
            exact ⟨kept.trans stays.objects.toKept, stays.window, stays.stored,
              fun handle there => stays.objects.kinds handle _ there, by simp [made]⟩
        | some handle =>
            cases step with
            | createHandle own tag props =>
                obtain rfl : own = handle := Option.some.inj made
                refine ⟨⟨fun id kind there => ?_, fun bounded => (kept.bounded bounded).put _ _⟩, rfl,
                  fun _ _ member => member, fun other there => ?_, fun step member other same => ?_⟩
                · have apart : id ≠ own := by
                    rintro rfl
                    rw [here id rfl] at there
                    cases there
                  rw [runStep, Objects.kind?_put, if_neg apart]
                  exact kept.kinds id kind there
                · rw [runStep, Objects.kind?_put]
                  split
                  · rfl
                  · exact there
                · rw [List.mem_singleton.mp member] at same
                  obtain rfl : own = other := Option.some.inj same
                  rw [runStep, Objects.kind?_put, if_pos rfl]
                  rfl
            | syncHandle | detachRef | willUnmount | release | instantiate | receive | declare =>
                cases made
      have rest := ih one.objects later
      refine ⟨rest.objects, rest.window.trans one.window,
        fun context _ member => one.stored context (rest.stored context member),
        fun handle there => rest.elements handle (one.elements handle there), ?_⟩
      intro other member handle made
      rcases List.mem_cons.mp member with rfl | among
      · exact rest.elements handle (one.created _ (List.mem_singleton_self _) handle made)
      · exact rest.created other among handle made

theorem stored_attachRef (id : RefId) (value : Value) (host : Host) (context : ContextId) :
    ∀ entry ∈ ((host.attachRef id value).context context).handles,
      entry ∈ (host.context context).handles ∨ (context = id.context ∧ entry.2 = value) := by
  have entered (declared : RefAttribute) : ∀ entry ∈
      ((host.withKey id declared fun key => Assoc.insert key value).context context).handles,
        entry ∈ (host.context context).handles ∨ (context = id.context ∧ entry.2 = value) := by
    intro entry member
    unfold withKey at member
    split at member
    · rw [context_modifyContext] at member
      split at member
      · rename_i same
        subst same
        rcases Assoc.mem_insert member with rfl | old
        · exact .inr ⟨rfl, rfl⟩
        · exact .inl old
      · exact .inl member
    · exact .inl member
  have answered (answer : Value) (host : Host) :
      (host.answerRef id answer).context = host.context := by
    unfold answerRef
    split <;> rfl
  unfold attachRef
  split
  · exact fun entry member => .inl member
  · split
    · intro entry member
      simp only [answered] at member
      exact entered _ entry member
    · exact fun entry member => .inl member

/-- What effects do to objects and to what is stored. -/
structure Effected (before after : Host) (effects : List Effect) : Prop where
  objects : before.objects.KeptTagged after.objects
  window : after.window = before.window
  stored : ∀ context, ∀ entry ∈ (after.context context).handles,
    entry ∈ (before.context context).handles ∨ ∃ id handle, .attachRef id handle ∈ effects ∧
      context = id.context ∧ entry.2 = .host handle

theorem effected (effects : List Effect) (host : Host) :
    Effected host (effects.foldl runEffect host) effects := by
  induction effects generalizing host with
  | nil => exact ⟨.refl _, rfl, fun _ _ member => .inl member⟩
  | cons effect rest ih =>
      have one : Effected host (host.runEffect effect) [effect] := by
        cases effect with
        | attachRef id handle =>
            have called := CalledBack.attachRef id (.host handle) host
            refine ⟨called.objects, called.window, fun context entry member => ?_⟩
            refine (stored_attachRef id (.host handle) host context entry member).imp_right ?_
            exact fun ⟨same, value⟩ => ⟨id, handle, List.mem_singleton_self _, same, value⟩
        | didMount id =>
            have stays := Stays.didMount id host
            exact ⟨stays.objects, stays.window,
              fun context entry member => .inl (stays.stored context member)⟩
      have rest := ih (host.runEffect effect)
      refine ⟨one.objects.trans rest.objects, rest.window.trans one.window,
        fun context entry member => ?_⟩
      rcases rest.stored context entry member with middle | ⟨id, handle, among, same, value⟩
      · refine (one.stored context entry middle).imp_right ?_
        rintro ⟨id, handle, here, same, value⟩
        exact ⟨id, handle, by simpa using .inl (List.mem_singleton.mp here), same, value⟩
      · exact .inr ⟨id, handle, List.mem_cons_of_mem _ among, same, value⟩

theorem Handled.kept_commit {α : Type} {outcome : Outcome α} {host : Host}
    {before after rest : List Holding} {finish : ObjectId}
    (handled : host.Handled (before ++ rest))
    (handover : Handover host.objects.next before after outcome.steps outcome.effects finish) :
    host.objects.Kept (host.commit outcome).objects :=
  (stepped (.refl host.objects) fun step member handle made =>
    handled.kind?_of_le (handover.created step member handle made)).objects.trans
      (effected outcome.effects _).objects.toKept

/-- A host that knows the handles of the trees knows those of the new ones after a rendering. -/
theorem Handled.commit {α : Type} {outcome : Outcome α} {host : Host}
    {before after rest : List Holding} {finish : ObjectId}
    (handled : host.Handled (before ++ rest))
    (handover : Handover host.objects.next before after outcome.steps outcome.effects finish) :
    (host.commit outcome).Handled (after ++ rest) := by
  have stepped := stepped (.refl host.objects) fun step member handle made =>
    handled.kind?_of_le (handover.created step member handle made)
  have effected := effected outcome.effects (outcome.steps.foldl runStep host)
  have kept := handled.kept_commit handover
  have elements : ∀ holding ∈ after ++ rest,
      (host.commit outcome).objects.kind? holding.1 = some .element := by
    intro holding member
    rcases List.mem_append.mp member with new | same
    · rcases handover.known holding new with was | ⟨step, done, made⟩
      · exact kept.kinds _ _ (handled.elements holding (List.mem_append_left _ was))
      · exact effected.objects.kinds _ _ (stepped.created step done _ made)
    · exact kept.kinds _ _ (handled.elements holding (List.mem_append_right _ same))
  have once : ((after ++ rest).map Prod.fst).Nodup := by
    rw [List.nodup_iff_count_le_one]
    intro handle
    have was := List.nodup_iff_count_le_one.mp handled.once handle
    have now := handover.count handle
    have fresh : host.objects.next ≤ handle →
        ((before ++ rest).map Prod.fst).count handle = 0 := by
      intro new
      rw [List.count_eq_zero]
      intro member
      obtain ⟨holding, among, rfl⟩ := List.mem_map.mp member
      exact absurd (handled.lt_of_mem among) (Nat.not_lt.mpr new)
    rw [List.map_append, List.count_append] at was fresh ⊢
    split at now
    · rename_i new
      have := fresh new.1
      omega
    · omega
  refine ⟨kept.bounded handled.bounded, ?_, once, elements, ?_⟩
  · have window : (host.commit outcome).window = host.window :=
      effected.window.trans stepped.window
    rw [window]
    exact kept.kinds _ _ handled.window
  · intro context entry member
    rcases effected.stored context entry member with old | ⟨id, handle, among, rfl, value⟩
    · obtain ⟨handle, same, element, own⟩ :=
        handled.stored context entry (stepped.stored context old)
      refine ⟨handle, same, kept.kinds _ _ element, fun owner held => ?_⟩
      rcases List.mem_append.mp held with new | same
      · rcases handover.known _ new with was | ⟨step, done, made⟩
        · exact own owner (List.mem_append_left _ was)
        · -- What had been stored is not the handle of a new element.
          have missing := handled.kind?_of_le (handover.created step done handle made)
          rw [element] at missing
          cases missing
      · exact own owner (List.mem_append_right _ same)
    · have attached := List.mem_append_left rest (handover.attached _ among id handle rfl)
      refine ⟨handle, value, elements _ attached, fun owner held => ?_⟩
      exact congrArg Prod.snd (List.inj_on_of_nodup_map once held attached rfl)

end RemoteView.Host
