import RemoteView.Proofs.Mounted.Apart
import RemoteView.Proofs.Mounted.Refs

/-! # Refs that are attached

A ref is known by its context and its position, and what it does was said first where it was
declared first. Every ref that a rendering attaches is declared by then: by the spine that is
rendered, or by the content of a component on the way.
-/

namespace RemoteView

/-- What the rendering of a spine at a site declares. -/
def Spine.declaredAt (site : Site) (spine : Spine) : List (ContextId × Declaration) :=
  (spine.declarations site.path).map (site.context, ·)

/-- What a step declares. -/
def Step.declared : Step → List (ContextId × Declaration)
  | .declare site spine => spine.declaredAt site
  | _ => []

/-- What steps declare, in order. -/
def Step.declarations (steps : List Step) : List (ContextId × Declaration) :=
  steps.flatMap Step.declared

@[simp] theorem Step.declarations_nil : Step.declarations [] = [] := rfl

@[simp] theorem Step.declarations_cons (step : Step) (rest : List Step) :
    Step.declarations (step :: rest) = step.declared ++ Step.declarations rest :=
  List.flatMap_cons

theorem Step.declarations_subset {steps more : List Step} (all : steps ⊆ more) :
    Step.declarations steps ⊆ Step.declarations more := by
  intro pair member
  obtain ⟨step, done, among⟩ := List.mem_flatMap.mp member
  exact List.mem_flatMap.mpr ⟨step, all done, among⟩

namespace RefId

/-- What a declaration says about a ref. -/
def saidBy (id : RefId) : ContextId × Declaration → Option RefAttribute
  | (context, .ref path declared) =>
      if context = id.context ∧ path = id.path then some declared else none
  | _ => none

/-- What declarations say about a ref: the first one counts. -/
def firstIn (id : RefId) (declarations : List (ContextId × Declaration)) : Option RefAttribute :=
  declarations.findSome? id.saidBy

theorem firstIn_append (id : RefId) (left right : List (ContextId × Declaration)) :
    id.firstIn (left ++ right) = (id.firstIn left).or (id.firstIn right) :=
  List.findSome?_append

/-- A ref is among declarations. -/
def IsDeclaredIn (id : RefId) (declarations : List (ContextId × Declaration)) : Prop :=
  ∃ declared, (id.context, .ref id.path declared) ∈ declarations

theorem IsDeclaredIn.mono {id : RefId} {declarations more : List (ContextId × Declaration)}
    (declared : id.IsDeclaredIn declarations) (all : declarations ⊆ more) :
    id.IsDeclaredIn more := by
  obtain ⟨said, among⟩ := declared
  exact ⟨said, all among⟩

theorem IsDeclaredIn.firstIn {id : RefId} {declarations : List (ContextId × Declaration)}
    (declared : id.IsDeclaredIn declarations) : ∃ first, id.firstIn declarations = some first := by
  obtain ⟨said, among⟩ := declared
  apply Option.isSome_iff_exists.mp
  rw [RefId.firstIn, List.findSome?_isSome_iff]
  exact ⟨_, among, by simp [saidBy]⟩

end RefId

namespace Mounted

/-- The refs that are attached are among declarations, and belong to a context or to an instance. -/
def Attaches (context : ContextId) (declarations : List (ContextId × Declaration))
    (effects : List Effect) : Prop :=
  ∀ one ∈ Effect.attaches effects, one.1.IsDeclaredIn declarations ∧
    (one.1.context = context ∨ one.1.context.instance?.isSome)

namespace Attaches

variable {context : ContextId} {declarations more : List (ContextId × Declaration)}
  {effects others : List Effect}

theorem mono (attaches : Attaches context declarations effects) (all : declarations ⊆ more) :
    Attaches context more effects := by
  intro one member
  obtain ⟨declared, inside⟩ := attaches one member
  exact ⟨declared.mono all, inside⟩

theorem append (first : Attaches context declarations effects)
    (second : Attaches context declarations others) :
    Attaches context declarations (effects ++ others) := by
  intro one member
  rw [Effect.attaches_append] at member
  rcases List.mem_append.mp member with here | there
  · exact first one here
  · exact second one there

/-- Two parts of a plan attach what the one and the other declares. -/
theorem beside {first second : List Step}
    (here : Attaches context (declarations ++ Step.declarations first) effects)
    (there : Attaches context (more ++ Step.declarations second) others) :
    Attaches context ((declarations ++ more) ++ Step.declarations (first ++ second))
      (effects ++ others) := by
  have left : declarations ++ Step.declarations first ⊆
      (declarations ++ more) ++ Step.declarations (first ++ second) := by
    apply List.append_subset.mpr
    exact ⟨List.subset_append_of_subset_left _ (List.subset_append_left _ _),
      List.subset_append_of_subset_right _ (Step.declarations_subset (List.subset_append_left _ _))⟩
  have right : more ++ Step.declarations second ⊆
      (declarations ++ more) ++ Step.declarations (first ++ second) := by
    apply List.append_subset.mpr
    exact ⟨List.subset_append_of_subset_left _ (List.subset_append_right _ _),
      List.subset_append_of_subset_right _
        (Step.declarations_subset (List.subset_append_right _ _))⟩
  exact (here.mono left).append (there.mono right)

/-- What is attached in the context of an instance belongs to an instance. -/
theorem of_instance {identity : Instance}
    (attaches : Attaches identity.context declarations effects) :
    Attaches context declarations effects := by
  intro one member
  obtain ⟨declared, same | inside⟩ := attaches one member
  · exact ⟨declared, .inr (by rw [same]; rfl)⟩
  · exact ⟨declared, .inr inside⟩

end Attaches

theorem attaches_own (site : Site) (tag : String) (children : List (UInt32 × Spine))
    (attributes : List Attribute) (handle : ObjectId) {ref : Option RefId}
    (own : ∀ id, ref = some id → (rendered site tag attributes handle).props.ref? = some id) :
    Attaches site.context ((Spine.element tag children attributes).declaredAt site)
      (attachments ref handle) := by
  cases ref with
  | none => simp [Attaches, attachments]
  | some id =>
      intro one member
      obtain rfl : one = (id, handle) := by simpa [attachment] using member
      obtain ⟨declared, among, rfl⟩ := exists_attribute_of_ref (own id rfl)
      refine ⟨⟨declared, List.mem_map.mpr ⟨_, ?_, rfl⟩⟩, .inl rfl⟩
      exact List.mem_append_right _
        (List.mem_flatMap.mpr ⟨_, among, List.mem_singleton_self _⟩)

theorem childDeclarations_subset (site : Site) (tag : String) (children : List (UInt32 × Spine))
    (attributes : List Attribute) (steps : List Step) :
    (Spine.childDeclarations site.path children).map (site.context, ·) ++ Step.declarations steps ⊆
      (Spine.element tag children attributes).declaredAt site ++ Step.declarations steps := by
  refine List.append_subset.mpr ⟨fun pair member => ?_, List.subset_append_right _ _⟩
  obtain ⟨declaration, among, rfl⟩ := List.mem_map.mp member
  exact List.mem_append_left _ (List.mem_map.mpr ⟨_, List.mem_append_left _ among, rfl⟩)

theorem attaches_cons {site : Site} {index : UInt32} {child : Spine}
    {rest : List (UInt32 × Spine)} {first others : List Step} {effects more : List Effect}
    (here : Attaches (site.child index).context
      (child.declaredAt (site.child index) ++ Step.declarations first) effects)
    (there : Attaches site.context
      ((Spine.childDeclarations site.path rest).map (site.context, ·) ++ Step.declarations others)
      more) :
    Attaches site.context ((Spine.childDeclarations site.path ((index, child) :: rest)).map
      (site.context, ·) ++ Step.declarations (first ++ others)) (effects ++ more) := by
  have split : (Spine.childDeclarations site.path ((index, child) :: rest)).map (site.context, ·) =
      child.declaredAt (site.child index) ++
        (Spine.childDeclarations site.path rest).map (site.context, ·) :=
    List.map_append
  rw [split]
  exact Attaches.beside here there

theorem attaches_component {site : Site} {identity : Instance} {content : Spine}
    {steps : List Step} {first : Step} {effects : List Effect}
    {declarations : List (ContextId × Declaration)}
    (inner : Attaches identity.site.context
      (content.declaredAt identity.site ++ Step.declarations steps) effects) :
    Attaches site.context (declarations ++
      Step.declarations (first :: .declare identity.site content :: steps)) effects := by
  refine Attaches.of_instance (inner.mono ?_)
  refine List.subset_append_of_subset_right _ ?_
  rw [Step.declarations_cons, Step.declarations_cons]
  exact List.subset_append_right _ _

theorem mount_attaches :
    MountInduction
      (fun site spine _ outcome => Attaches site.context
        (spine.declaredAt site ++ Step.declarations outcome.steps) outcome.effects)
      (fun site children _ outcome => Attaches site.context
        ((Spine.childDeclarations site.path children).map (site.context, ·) ++
          Step.declarations outcome.steps) outcome.effects) where
  empty _ _ := by simp [Attaches]
  text _ _ _ := by simp [Attaches]
  element site tag children attributes supply inner := by
    refine Attaches.append (inner.mono ?_)
      ((attaches_own site tag children attributes supply.nextObject fun _ own => own).mono
        (List.subset_append_left _ _))
    exact childDeclarations_subset site tag children attributes _
  component site id name content behaviour supply inner := by
    refine Attaches.append (attaches_component inner) ?_
    simp [Attaches]
  nil _ _ := by simp [Attaches]
  cons _ _ _ _ _ first others := attaches_cons first others

theorem reconcile_attaches :
    ReconcileInduction
      (fun site _ spine _ outcome => Attaches site.context
        (spine.declaredAt site ++ Step.declarations outcome.steps) outcome.effects)
      (fun site _ children _ outcome => Attaches site.context
        ((Spine.childDeclarations site.path children).map (site.context, ·) ++
          Step.declarations outcome.steps) outcome.effects) where
  replace site old spine supply _ := by
    rw [replace_apply]
    refine (mount_attaches.mount site spine supply).mono ?_
    exact List.append_subset.mpr ⟨List.subset_append_left _ _,
      List.subset_append_of_subset_right _
        (Step.declarations_subset (List.subset_append_right _ _))⟩
  empty _ _ := by simp [Attaches]
  text _ _ _ _ := by simp [Attaches]
  element site node oldChildren children attributes supply inner := by
    refine Attaches.append (inner.mono ?_)
      ((attaches_own site node.tag children attributes node.handle fun id own => ?_).mono
        (List.subset_append_left _ _))
    · refine List.Subset.trans (childDeclarations_subset site node.tag children attributes _) ?_
      refine List.append_subset.mpr ⟨List.subset_append_left _ _,
        List.subset_append_of_subset_right _ (Step.declarations_subset fun step done => ?_)⟩
      exact List.mem_append_right _ (List.mem_cons_of_mem _ (List.mem_append_left _ done))
    · split at own
      · exact own
      · cases own
  component site identity old name content behaviour supply _ inner := attaches_component inner
  nil _ _ _ := by simp [Attaches]
  kept _ _ _ _ _ _ _ first others := attaches_cons first others
  new site _ index child _ supply _ others :=
    attaches_cons (mount_attaches.mount (site.child index) child supply) others

theorem reconcileEach_attaches (site : Site) :
    EachInduction site fun pairs _ outcome =>
      Attaches site.context
        ((pairs.map Prod.snd).flatMap (Spine.declaredAt site) ++ Step.declarations outcome.steps)
        outcome.effects where
  nil _ := by simp [Attaches]
  new spine rest supply others := by
    rw [List.map_cons, List.flatMap_cons]
    exact (mount_attaches.mount site spine supply).beside others
  kept old spine rest supply others := by
    rw [List.map_cons, List.flatMap_cons]
    exact (reconcile_attaches.reconcile site old spine supply).beside others

theorem attaches_reconcileAll (site : Site) (old : List Mounted) (spines : List Spine)
    (supply : Supply) :
    let outcome := reconcileAll site old spines supply
    Attaches site.context
      (spines.flatMap (Spine.declaredAt site) ++ Step.declarations outcome.steps)
      outcome.effects := by
  rw [reconcileAll_apply]
  have each := (reconcileEach_attaches site).each
    ((Matching.assign key old (spines.map (Spine.keyAt site.key))).1.zip spines) supply
  rw [List.map_snd_zip (by simp)] at each
  exact each.mono (List.append_subset.mpr ⟨List.subset_append_left _ _,
    List.subset_append_of_subset_right _
      (Step.declarations_subset (List.subset_append_left _ _))⟩)

theorem Rerenders.attaches {id : InstanceId} {content : Spine} {supply finish : Supply}
    {held : Bool} {steps : List Step} {effects : List Effect}
    (does : Rerenders id content supply held steps effects finish) (context : ContextId) :
    Attaches context (Step.declarations steps) effects := by
  cases does with
  | absent => simp [Attaches]
  | here identity child _ =>
      apply Attaches.of_instance
      apply (reconcile_attaches.reconcile identity.site child content supply).mono
      rw [Step.declarations_cons]
      exact List.Subset.refl _

end Mounted

end RemoteView
