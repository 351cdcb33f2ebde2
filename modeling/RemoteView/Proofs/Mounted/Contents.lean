import RemoteView.Proofs.Client.Rendering
import RemoteView.Proofs.Mounted.Attaching

/-! # Contents of components

When a tree changes, the content of a component is declared in the context of its instance: once
when the instance is created, once for every payload that it receives, and once when it is rendered
again. So all that a new context has heard of is the content that its instance was created with.
-/

namespace RemoteView

namespace Step

/-- The instance in whose context a step declares something. -/
@[simp] def declarer? : Step → Option InstanceId
  | .declare site _ => site.context.instance?
  | _ => none

/-- The instances in whose contexts steps declare something. -/
def declarers (steps : List Step) : List InstanceId := steps.filterMap declarer?

@[simp] theorem declarers_nil : declarers [] = [] := rfl

@[simp] theorem declarers_cons (step : Step) (rest : List Step) :
    declarers (step :: rest) = step.declarer?.toList ++ declarers rest := by
  cases step with
  | declare site spine => cases same : site.context.instance? <;> simp [declarers, same]
  | createHandle | syncHandle | detachRef | willUnmount | release | instantiate | receive => rfl

@[simp] theorem declarers_append (left right : List Step) :
    declarers (left ++ right) = declarers left ++ declarers right :=
  List.filterMap_append

theorem declarers_of_takesDown {steps : List Step} (down : ∀ step ∈ steps, step.TakesDown) :
    declarers steps = [] := by
  apply List.filterMap_eq_nil_iff.mpr
  intro step among
  cases step with
  | declare => exact (down _ among).elim
  | createHandle | syncHandle | detachRef | willUnmount | release | instantiate | receive => rfl

theorem mem_declarers_of_declared {steps : List Step} {pair : ContextId × Declaration}
    (among : pair ∈ declarations steps) {id : InstanceId} (own : pair.1.instance? = some id) :
    id ∈ declarers steps := by
  obtain ⟨step, done, declared⟩ := List.mem_flatMap.mp among
  apply List.mem_filterMap.mpr
  refine ⟨step, done, ?_⟩
  cases step with
  | declare site spine =>
      obtain ⟨declaration, -, rfl⟩ := List.mem_map.mp declared
      exact own
  | createHandle | syncHandle | detachRef | willUnmount | release | instantiate | receive =>
      cases declared

end Step

namespace Mounted

/-- Contents are declared for instances that are created, that receive a payload or that are
    rendered again, each time once. What is created with a payload declares the content of the payload. -/
structure DeclaresContents (again : List InstanceId) (steps : List Step) : Prop where
  balance : ∀ n, (Step.declarers steps).count n ≤ (Step.receivers steps).count n +
    ((Step.instantiations steps).map Instance.id).count n + again.count n
  created : ∀ identity payload, .instantiate identity payload ∈ steps →
    .declare identity.site payload.content ∈ steps

namespace DeclaresContents

variable {again : List InstanceId} {steps others : List Step}

theorem of_takesDown (down : ∀ step ∈ steps, step.TakesDown) : DeclaresContents again steps where
  balance n := by
    rw [Step.declarers_of_takesDown down]
    exact Nat.zero_le _
  created identity payload done := (down _ done).elim

theorem nil : DeclaresContents again [] := of_takesDown (by simp)

theorem append (first : DeclaresContents again steps) (second : DeclaresContents [] others) :
    DeclaresContents again (steps ++ others) where
  balance n := by
    have here := first.balance n
    have there := second.balance n
    simp only [Step.declarers_append, Step.receivers_append, Step.instantiations_append,
      List.map_append, List.count_append, List.count_nil] at *
    omega
  created identity payload done := by
    rcases List.mem_append.mp done with here | there
    · exact List.mem_append_left _ (first.created identity payload here)
    · exact List.mem_append_right _ (second.created identity payload there)

theorem cons {step : Step} (down : step.TakesDown) (rest : DeclaresContents [] steps) :
    DeclaresContents [] (step :: steps) :=
  (of_takesDown (List.forall_mem_singleton.mpr down)).append rest

theorem create (identity : Instance) (payload : Payload) :
    DeclaresContents []
      [.instantiate identity payload, .declare identity.site payload.content] where
  balance n := by simp [Instance.site, Instance.context]
  created other given done := by
    obtain ⟨rfl, rfl⟩ : other = identity ∧ given = payload := by simpa using done
    simp

theorem receive (identity : Instance) (payload : Payload) (content : Spine) :
    DeclaresContents [] [.receive identity.id payload, .declare identity.site content] where
  balance n := by simp [Instance.site, Instance.context]
  created other given done := by simp at done

theorem rerender (identity : Instance) (content : Spine) :
    DeclaresContents [identity.id] [.declare identity.site content] where
  balance n := by simp [Instance.site, Instance.context]
  created other given done := by simp at done

end DeclaresContents

theorem mount_declaresContents :
    MountInduction (fun _ _ _ outcome => DeclaresContents [] outcome.steps)
      (fun _ _ _ outcome => DeclaresContents [] outcome.steps) where
  empty _ _ := .nil
  text _ _ _ := .nil
  element _ _ _ _ _ inner := inner.cons trivial
  component site id _ content behaviour supply inner :=
    (DeclaresContents.create (newIdentity site supply.nextInstance id) ⟨content, behaviour⟩).append
      inner
  nil _ _ := .nil
  cons _ _ _ _ _ first others := first.append others

theorem takesDown_detachments (ref : Option RefId) :
    ∀ step ∈ detachments ref, step.TakesDown := by
  intro step among
  obtain ⟨id, -, rfl⟩ := Option.map_eq_some_iff.mp (Option.mem_toList.mp among)
  trivial

theorem reconcile_declaresContents :
    ReconcileInduction (fun _ _ _ _ outcome => DeclaresContents [] outcome.steps)
      (fun _ _ _ _ outcome => DeclaresContents [] outcome.steps) where
  replace site old spine supply _ := by
    rw [replace_apply]
    exact (DeclaresContents.of_takesDown (takesDown_unmount old)).append
      (mount_declaresContents.mount site spine supply)
  empty _ _ := .nil
  text _ _ _ _ := .nil
  element site node oldChildren children attributes supply inner := by
    apply (DeclaresContents.of_takesDown (takesDown_detachments _)).append
    have rest := inner.append (.of_takesDown (takesDown_unmountAll
      (Matching.assign key oldChildren (childKeys children)).2))
    exact rest.cons trivial
  component _ identity _ _ content behaviour _ _ inner :=
    (DeclaresContents.receive identity ⟨content, behaviour⟩ content).append inner
  nil _ _ _ := .nil
  kept _ _ _ _ _ _ _ first others := first.append others
  new site _ index child _ supply _ others :=
    (mount_declaresContents.mount (site.child index) child supply).append others

theorem reconcileEach_declaresContents (site : Site) :
    EachInduction site fun _ _ outcome => DeclaresContents [] outcome.steps where
  nil _ := .nil
  new spine _ supply others := (mount_declaresContents.mount site spine supply).append others
  kept old spine _ supply others :=
    (reconcile_declaresContents.reconcile site old spine supply).append others

theorem declaresContents_reconcileAll (site : Site) (old : List Mounted) (spines : List Spine)
    (supply : Supply) : DeclaresContents [] (reconcileAll site old spines supply).steps := by
  rw [reconcileAll_apply]
  exact ((reconcileEach_declaresContents site).each _ supply).append
    (.of_takesDown (takesDown_unmountAll _))

theorem Rerenders.declaresContents {id : InstanceId} {content : Spine} {supply finish : Supply}
    {held : Bool} {steps : List Step} {effects : List Effect}
    (does : Rerenders id content supply held steps effects finish) :
    DeclaresContents [id] steps := by
  cases does with
  | absent => exact .nil
  | here identity child named =>
      rw [← named]
      exact (DeclaresContents.rerender identity content).append
        (reconcile_declaresContents.reconcile identity.site child content supply)

end Mounted

end RemoteView
