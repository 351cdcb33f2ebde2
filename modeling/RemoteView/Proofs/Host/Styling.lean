import RemoteView.Proofs.Host.CalledBack
import RemoteView.Proofs.Mounted.Styles

/-! # Styles that a rendering writes

Of all that a rendering does to the host only declarations write styles, and they write those of the
spines that are declared.
-/

namespace RemoteView

/-- The style descriptors that are declared. -/
def Declaration.descriptors : Declaration → List StyleDescriptor
  | .rules descriptors => descriptors
  | _ => []

theorem Attribute.descriptors_declarations (path : Path) (one : Attribute) :
    (one.declarations path).flatMap Declaration.descriptors = one.descriptors := by
  cases one with
  | style style => cases style <;> simp [declarations, Declaration.descriptors, descriptors]
  | value | listener | ref => rfl

namespace Spine

mutual
theorem descriptors_declarations (path : Path) (spine : Spine) :
    (spine.declarations path).flatMap Declaration.descriptors = spine.descriptors := by
  cases spine with
  | empty | text | component => rfl
  | element tag children attributes =>
      rw [declarations, List.flatMap_append, descriptors_childDeclarations path children,
        List.flatMap_assoc, descriptors]
      simp only [Attribute.descriptors_declarations]

theorem descriptors_childDeclarations (path : Path) (children : List (UInt32 × Spine)) :
    (childDeclarations path children).flatMap Declaration.descriptors =
      childDescriptors children := by
  cases children with
  | nil => rfl
  | cons first rest =>
      rw [childDeclarations, List.flatMap_append, descriptors_declarations _ first.2,
        descriptors_childDeclarations path rest, childDescriptors]
end

end Spine

theorem RuleCompiler.emitAll_append (compiler : RuleCompiler)
    (left right : List StyleDescriptor) :
    compiler.emitAll (left ++ right) = (compiler.emitAll left).emitAll right :=
  List.foldl_append

namespace Host

theorem styles_declare (context : ContextId) (declaration : Declaration) (host : Host) :
    (host.declare context declaration).styles = host.styles.emitAll declaration.descriptors := by
  cases declaration <;> rfl

theorem styles_declareAll (site : Site) (spine : Spine) (host : Host) :
    (host.declareAll site spine).styles = host.styles.emitAll spine.descriptors := by
  rw [← Spine.descriptors_declarations site.path spine, declareAll]
  induction spine.declarations site.path generalizing host with
  | nil => rfl
  | cons first rest ih =>
      rw [List.foldl_cons, ih, styles_declare, List.flatMap_cons, RuleCompiler.emitAll_append]

theorem styles_declareEach (site : Site) (spines : List Spine) (host : Host) :
    (spines.foldl (fun host spine => host.declareAll site spine) host).styles =
      host.styles.emitAll (spines.flatMap Spine.descriptors) := by
  induction spines generalizing host with
  | nil => rfl
  | cons first rest ih =>
      rw [List.foldl_cons, ih, styles_declareAll, List.flatMap_cons, RuleCompiler.emitAll_append]

theorem styles_willUnmount (id : InstanceId) (host : Host) :
    (host.willUnmount id).styles = host.styles := by
  rcases willUnmount_cases id host with ⟨state, found, mounted⟩ | ⟨-, same⟩
  · obtain ⟨window, same⟩ := willUnmount_eq found mounted
    rw [same]
    exact (CalledBack.runHooks _ _ _).styles
  · rw [same]

theorem styles_didMount (id : InstanceId) (host : Host) :
    (host.didMount id).styles = host.styles := by
  have registered (identity : Instance) (host : Host) :
      (host.registerMounted identity).styles = host.styles := by
    unfold registerMounted
    simp only
    split
    · split <;> rfl
    · rfl
  have attached (identity : Instance) (listeners : List WindowListener) (host : Host) :
      (listeners.foldl (attachListener identity) host).styles = host.styles := by
    induction listeners generalizing host with
    | nil => rfl
    | cons first rest ih => exact ih _
  unfold didMount
  split
  · rfl
  · split
    · rw [attached, (CalledBack.runHooks _ _ _).styles, registered]
      rfl
    · rfl

theorem styles_runStep (step : Step) (host : Host) :
    (host.runStep step).styles = host.styles.emitAll step.descriptors := by
  cases step with
  | createHandle | syncHandle | release | instantiate | receive => rfl
  | detachRef id => exact (CalledBack.detachRef id host).styles
  | willUnmount id => exact styles_willUnmount id host
  | declare site spine => exact styles_declareAll site spine host

theorem styles_runEffect (effect : Effect) (host : Host) :
    (host.runEffect effect).styles = host.styles := by
  cases effect with
  | attachRef id handle => exact (CalledBack.attachRef id (.host handle) host).styles
  | didMount id => exact styles_didMount id host

theorem styles_commit {α : Type} (outcome : Outcome α) (host : Host) :
    (host.commit outcome).styles =
      host.styles.emitAll (Step.allDescriptors outcome.steps) := by
  have stepped (steps : List Step) (host : Host) : (steps.foldl runStep host).styles =
      host.styles.emitAll (Step.allDescriptors steps) := by
    induction steps generalizing host with
    | nil => rfl
    | cons first rest ih =>
        rw [List.foldl_cons, ih, styles_runStep, Step.allDescriptors_cons,
          RuleCompiler.emitAll_append]
  have effected (effects : List Effect) (host : Host) :
      (effects.foldl runEffect host).styles = host.styles := by
    induction effects generalizing host with
    | nil => rfl
    | cons first rest ih => exact (ih _).trans (styles_runEffect first host)
  rw [commit, effected, stepped]

end Host

end RemoteView
