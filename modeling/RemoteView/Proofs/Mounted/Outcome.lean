import RemoteView.Mounted.Reconcile

/-! # What reconciling comes to

Every plan of the library as the outcome it has, and one principle of induction for mounting, one
for reconciling, one for reconciling trees side by side and one for rendering other content in a
component: a property of outcomes that holds for every kind of node, given that it holds for the
children and for the content, holds of every outcome. What is proved about plans is proved by these
principles and never unfolds them.
-/

namespace RemoteView

namespace Plan

variable {α β : Type}

@[simp] theorem pure_apply (value : α) (supply : Supply) :
    (Pure.pure value : Plan α) supply = ⟨value, [], [], supply⟩ := rfl

@[simp] theorem bind_apply (plan : Plan α) (next : α → Plan β) (supply : Supply) :
    (plan >>= next) supply =
      ⟨(next (plan supply).value (plan supply).supply).value,
        (plan supply).steps ++ (next (plan supply).value (plan supply).supply).steps,
        (plan supply).effects ++ (next (plan supply).value (plan supply).supply).effects,
        (next (plan supply).value (plan supply).supply).supply⟩ := rfl

@[simp] theorem steps_apply (list : List Step) (supply : Supply) :
    steps list supply = ⟨(), list, [], supply⟩ := rfl

@[simp] theorem step_apply (one : Step) (supply : Supply) :
    step one supply = ⟨(), [one], [], supply⟩ := rfl

@[simp] theorem effect_apply (one : Effect) (supply : Supply) :
    effect one supply = ⟨(), [], [one], supply⟩ := rfl

@[simp] theorem newObject_apply (supply : Supply) :
    newObject supply =
      ⟨supply.nextObject, [], [], { supply with nextObject := supply.nextObject + 1 }⟩ := rfl

@[simp] theorem newInstance_apply (supply : Supply) :
    newInstance supply =
      ⟨supply.nextInstance, [], [], { supply with nextInstance := supply.nextInstance + 1 }⟩ := rfl

end Plan

@[simp] theorem Site.session_root (session : SessionId) :
    (Site.root session).context.session = session := rfl

@[simp] theorem Site.context_child (site : Site) (index : UInt32) :
    (site.child index).context = site.context := rfl

namespace Mounted

/-- The element that a spine is at a site, with a handle. It is the same whether the handle is new
    or was there before: an input takes over whatever is pushed. -/
def rendered (site : Site) (tag : String) (attributes : List Attribute) (handle : ObjectId) :
    MountedElement :=
  let pushed := Props.ofAttributes site.context site.path attributes
  let input := inputFor tag none pushed
  ⟨tag, site.key, propsWith handle input pushed, handle, input⟩

@[simp] theorem rendered_tag (site : Site) (tag : String) (attributes : List Attribute)
    (handle : ObjectId) : (rendered site tag attributes handle).tag = tag := rfl

@[simp] theorem rendered_key (site : Site) (tag : String) (attributes : List Attribute)
    (handle : ObjectId) : (rendered site tag attributes handle).key = site.key := rfl

@[simp] theorem rendered_handle (site : Site) (tag : String) (attributes : List Attribute)
    (handle : ObjectId) : (rendered site tag attributes handle).handle = handle := rfl

theorem inputFor_previous (tag : String) (previous : Option ControlledInput) (pushed : Props) :
    inputFor tag previous pushed = inputFor tag none pushed := by
  cases previous <;> rfl

/-- The detaching of a ref that is there. -/
def detachments (ref : Option RefId) : List Step := (ref.map Step.detachRef).toList

/-- The attaching of a ref that is there. -/
def attachments (ref : Option RefId) (handle : ObjectId) : List Effect :=
  (ref.map fun id => Effect.attachRef id handle).toList

@[simp] theorem attachLater_apply (ref : Option RefId) (handle : ObjectId) (supply : Supply) :
    attachLater ref handle supply = ⟨(), [], attachments ref handle, supply⟩ := by
  cases ref <;> rfl

/-- The keys of the children of a spine, in order. -/
def childKeys (children : List (UInt32 × Spine)) : List (Option UInt32) :=
  children.map fun (index, child) => child.keyAt (some index)

/-- The identity of a component that is mounted under a new number. -/
def newIdentity (site : Site) (number : InstanceId) (component : UInt64) : Instance :=
  ⟨number, site.context.session, component, site.path, site.key⟩

@[simp] theorem mount_empty (site : Site) (supply : Supply) :
    mount site .empty supply = ⟨.empty, [], [], supply⟩ := rfl

@[simp] theorem mount_text (site : Site) (content : String) (supply : Supply) :
    mount site (.text content) supply = ⟨.text content, [], [], supply⟩ := rfl

theorem mount_element (site : Site) (tag : String) (children : List (UInt32 × Spine))
    (attributes : List Attribute) (supply : Supply) :
    mount site (.element tag children attributes) supply =
      let node := rendered site tag attributes supply.nextObject
      let inner := mountChildren site children
        { supply with nextObject := supply.nextObject + 1 }
      ⟨.element node inner.value, .createHandle node.handle tag node.props :: inner.steps,
        inner.effects ++ attachments node.props.ref? node.handle, inner.supply⟩ := by
  simp only [mount, Plan.bind_apply, Plan.newObject_apply, Plan.step_apply, attachLater_apply,
    Plan.pure_apply, List.nil_append, List.append_nil]
  rfl

theorem mount_component (site : Site) (id : UInt64) (name : String) (content : Spine)
    (behaviour : Behaviour) (supply : Supply) :
    mount site (.component id name content behaviour) supply =
      let identity := newIdentity site supply.nextInstance id
      let inner := mount identity.site content
        { supply with nextInstance := supply.nextInstance + 1 }
      ⟨.component identity inner.value,
        .instantiate identity ⟨content, behaviour⟩ :: .declare identity.site content ::
          inner.steps,
        inner.effects ++ [.didMount identity.id], inner.supply⟩ := by
  simp only [mount, Plan.bind_apply, Plan.newInstance_apply, Plan.step_apply, Plan.effect_apply,
    Plan.pure_apply, List.nil_append, List.append_nil]
  rfl

@[simp] theorem mountChildren_nil (site : Site) (supply : Supply) :
    mountChildren site [] supply = ⟨[], [], [], supply⟩ := rfl

theorem mountChildren_cons (site : Site) (index : UInt32) (child : Spine)
    (rest : List (UInt32 × Spine)) (supply : Supply) :
    mountChildren site ((index, child) :: rest) supply =
      let first := mount (site.child index) child supply
      let others := mountChildren site rest first.supply
      ⟨first.value :: others.value, first.steps ++ others.steps, first.effects ++ others.effects,
        others.supply⟩ := by
  simp only [mountChildren, Plan.bind_apply, Plan.pure_apply, List.append_nil]

theorem replace_apply (site : Site) (old : Mounted) (spine : Spine) (supply : Supply) :
    replace site old spine supply =
      let new := mount site spine supply
      ⟨new.value, old.unmount ++ new.steps, new.effects, new.supply⟩ := rfl

theorem reconcile_element (site : Site) {node : MountedElement} {tag : String}
    (kept : node.tag = tag) (oldChildren : List Mounted) (children : List (UInt32 × Spine))
    (attributes : List Attribute) (supply : Supply) :
    reconcile site (.element node oldChildren) (.element tag children attributes) supply =
      let new := rendered site tag attributes node.handle
      let changed := node.props.ref? ≠ new.props.ref?
      let assigned := Matching.assign key oldChildren (childKeys children)
      let inner := reconcileChildren site assigned.1 children supply
      ⟨.element new inner.value,
        detachments (if changed then node.props.ref? else none) ++
          .syncHandle node.handle new.props :: (inner.steps ++ unmountAll assigned.2),
        inner.effects ++ attachments (if changed then new.props.ref? else none) node.handle,
        inner.supply⟩ := by
  subst kept
  simp only [reconcile, if_true, Plan.bind_apply, Plan.steps_apply, Plan.step_apply,
    attachLater_apply, Plan.pure_apply, inputFor_previous node.tag node.input, List.nil_append,
    List.append_nil]
  by_cases changed : node.props.ref? = (rendered site node.tag attributes node.handle).props.ref?
  · simp [rendered, childKeys, detachments] at changed ⊢
    simp [changed]
  · simp [rendered, childKeys, detachments] at changed ⊢
    simp [changed]

theorem reconcile_component (site : Site) {identity : Instance} {id : UInt64}
    (same : identity.session = site.context.session ∧ identity.component = id) (old : Mounted)
    (name : String) (content : Spine) (behaviour : Behaviour) (supply : Supply) :
    reconcile site (.component identity old) (.component id name content behaviour) supply =
      let inner := reconcile identity.site old content supply
      ⟨.component identity inner.value,
        .receive identity.id ⟨content, behaviour⟩ :: .declare identity.site content ::
          inner.steps,
        inner.effects, inner.supply⟩ := by
  simp only [reconcile, if_pos same, Plan.bind_apply, Plan.step_apply, Plan.pure_apply,
    List.nil_append, List.append_nil]
  rfl

@[simp] theorem reconcileChildren_nil (site : Site) (matched : List (Option Mounted))
    (supply : Supply) : reconcileChildren site matched [] supply = ⟨[], [], [], supply⟩ := rfl

theorem reconcileChildren_kept (site : Site) (old : Mounted) (matched : List (Option Mounted))
    (index : UInt32) (child : Spine) (rest : List (UInt32 × Spine)) (supply : Supply) :
    reconcileChildren site (some old :: matched) ((index, child) :: rest) supply =
      let first := reconcile (site.child index) old child supply
      let others := reconcileChildren site matched rest first.supply
      ⟨first.value :: others.value, first.steps ++ others.steps, first.effects ++ others.effects,
        others.supply⟩ := by
  simp only [reconcileChildren, List.head?_cons, Option.join_some, List.tail_cons, Plan.bind_apply,
    Plan.pure_apply, List.append_nil]

theorem reconcileChildren_new (site : Site) {matched : List (Option Mounted)}
    (none : matched.head?.join = none) (index : UInt32) (child : Spine)
    (rest : List (UInt32 × Spine)) (supply : Supply) :
    reconcileChildren site matched ((index, child) :: rest) supply =
      let first := mount (site.child index) child supply
      let others := reconcileChildren site matched.tail rest first.supply
      ⟨first.value :: others.value, first.steps ++ others.steps, first.effects ++ others.effects,
        others.supply⟩ := by
  simp only [reconcileChildren, none, Plan.bind_apply, Plan.pure_apply, List.append_nil]

/-- Turn trees that were matched, or nothing, into what spines render to at one site. -/
def reconcileEach (site : Site) (pairs : List (Option Mounted × Spine)) : Plan (List Mounted) :=
  pairs.mapM fun (matched, spine) => reconcileMatched site matched spine

@[simp] theorem reconcileEach_nil (site : Site) (supply : Supply) :
    reconcileEach site [] supply = ⟨[], [], [], supply⟩ := rfl

theorem reconcileEach_cons (site : Site) (matched : Option Mounted) (spine : Spine)
    (rest : List (Option Mounted × Spine)) (supply : Supply) :
    reconcileEach site ((matched, spine) :: rest) supply =
      let first := reconcileMatched site matched spine supply
      let others := reconcileEach site rest first.supply
      ⟨first.value :: others.value, first.steps ++ others.steps, first.effects ++ others.effects,
        others.supply⟩ := by
  simp only [reconcileEach, List.mapM_cons, Plan.bind_apply, Plan.pure_apply, List.append_nil]

theorem reconcileAll_apply (site : Site) (old : List Mounted) (spines : List Spine)
    (supply : Supply) :
    reconcileAll site old spines supply =
      let assigned := Matching.assign key old (spines.map (Spine.keyAt site.key))
      let each := reconcileEach site (assigned.1.zip spines) supply
      ⟨each.value, each.steps ++ unmountAll assigned.2, each.effects, each.supply⟩ := by
  simp only [reconcileAll, Plan.bind_apply, Plan.steps_apply, Plan.pure_apply, List.append_nil]
  rfl

theorem rerender_element (id : InstanceId) (content : Spine) (node : MountedElement)
    (children : List Mounted) (supply : Supply) :
    rerender id content (.element node children) supply =
      let inner := rerenderFirst id content children supply
      ⟨.element node inner.value, inner.steps, inner.effects, inner.supply⟩ := by
  simp only [rerender, Plan.bind_apply, Plan.pure_apply, List.append_nil]

theorem rerender_here (content : Spine) (identity : Instance) (child : Mounted)
    (supply : Supply) :
    rerender identity.id content (.component identity child) supply =
      let inner := reconcile identity.site child content supply
      ⟨.component identity inner.value, .declare identity.site content :: inner.steps,
        inner.effects, inner.supply⟩ := by
  simp only [rerender, if_true, Plan.bind_apply, Plan.step_apply, Plan.pure_apply,
    List.nil_append, List.append_nil]
  rfl

theorem rerender_inside {id : InstanceId} (content : Spine) {identity : Instance}
    (other : identity.id ≠ id) (child : Mounted) (supply : Supply) :
    rerender id content (.component identity child) supply =
      let inner := rerender id content child supply
      ⟨.component identity inner.value, inner.steps, inner.effects, inner.supply⟩ := by
  simp only [rerender, if_neg other, Plan.bind_apply, Plan.pure_apply, List.append_nil]

theorem rerenderFirst_here {id : InstanceId} (content : Spine) {tree : Mounted}
    (held : tree.holds id = true) (rest : List Mounted) (supply : Supply) :
    rerenderFirst id content (tree :: rest) supply =
      let inner := rerender id content tree supply
      ⟨inner.value :: rest, inner.steps, inner.effects, inner.supply⟩ := by
  simp only [rerenderFirst, held, if_true, Plan.bind_apply, Plan.pure_apply, List.append_nil]

theorem rerenderFirst_later {id : InstanceId} (content : Spine) {tree : Mounted}
    (absent : tree.holds id ≠ true) (rest : List Mounted) (supply : Supply) :
    rerenderFirst id content (tree :: rest) supply =
      let inner := rerenderFirst id content rest supply
      ⟨tree :: inner.value, inner.steps, inner.effects, inner.supply⟩ := by
  simp only [rerenderFirst, if_neg absent, Plan.bind_apply, Plan.pure_apply, List.append_nil]

/-- Is a tree the same kind of node as a spine at a site, so that it is kept? -/
def Fits (site : Site) : Mounted → Spine → Prop
  | .empty, .empty => True
  | .text _, .text _ => True
  | .element node _, .element tag _ _ => node.tag = tag
  | .component identity _, .component id _ _ _ =>
      identity.session = site.context.session ∧ identity.component = id
  | _, _ => False

/-- Reconciling is replacing, unless the old tree and the spine are the same kind of node. -/
theorem reconcile_eq_replace_or (site : Site) (old : Mounted) (spine : Spine) :
    ¬ Fits site old spine ∧ reconcile site old spine = replace site old spine ∨
      (old = .empty ∧ spine = .empty) ∨
      (∃ before content, old = .text before ∧ spine = .text content) ∨
      (∃ node oldChildren tag children attributes, old = .element node oldChildren ∧
        spine = .element tag children attributes ∧ node.tag = tag) ∨
      (∃ identity child id name content behaviour, old = .component identity child ∧
        spine = .component id name content behaviour ∧
        identity.session = site.context.session ∧ identity.component = id) := by
  cases spine with
  | empty =>
      cases old with
      | empty => exact .inr (.inl ⟨rfl, rfl⟩)
      | text | element | component => exact .inl ⟨id, rfl⟩
  | text content =>
      cases old with
      | text before => exact .inr (.inr (.inl ⟨before, content, rfl, rfl⟩))
      | empty | element | component => exact .inl ⟨id, rfl⟩
  | element tag children attributes =>
      cases old with
      | element node oldChildren =>
          by_cases kept : node.tag = tag
          · exact .inr (.inr (.inr (.inl ⟨node, oldChildren, tag, children, attributes, rfl, rfl,
              kept⟩)))
          · refine .inl ⟨kept, ?_⟩
            simp only [reconcile, if_neg kept]
      | empty | text | component => exact .inl ⟨id, rfl⟩
  | component number name content behaviour =>
      cases old with
      | component identity child =>
          by_cases same : identity.session = site.context.session ∧ identity.component = number
          · exact .inr (.inr (.inr (.inr ⟨identity, child, number, name, content, behaviour, rfl,
              rfl, same⟩)))
          · refine .inl ⟨same, ?_⟩
            simp only [reconcile, if_neg same]
      | empty | text | element => exact .inl ⟨id, rfl⟩

/-- What holds of mounting every kind of node, given that it holds of what is inside. -/
structure MountInduction (P : Site → Spine → Supply → Outcome Mounted → Prop)
    (Q : Site → List (UInt32 × Spine) → Supply → Outcome (List Mounted) → Prop) : Prop where
  empty : ∀ site supply, P site .empty supply ⟨.empty, [], [], supply⟩
  text : ∀ site content supply, P site (.text content) supply ⟨.text content, [], [], supply⟩
  element : ∀ site tag children attributes supply,
    let node := rendered site tag attributes supply.nextObject
    let start : Supply := { supply with nextObject := supply.nextObject + 1 }
    let inner := mountChildren site children start
    Q site children start inner →
      P site (.element tag children attributes) supply
        ⟨.element node inner.value, .createHandle node.handle tag node.props :: inner.steps,
          inner.effects ++ attachments node.props.ref? node.handle, inner.supply⟩
  component : ∀ site id name content behaviour supply,
    let identity := newIdentity site supply.nextInstance id
    let start : Supply := { supply with nextInstance := supply.nextInstance + 1 }
    let inner := mount identity.site content start
    P identity.site content start inner →
      P site (.component id name content behaviour) supply
        ⟨.component identity inner.value,
          .instantiate identity ⟨content, behaviour⟩ :: .declare identity.site content ::
            inner.steps,
          inner.effects ++ [.didMount identity.id], inner.supply⟩
  nil : ∀ site supply, Q site [] supply ⟨[], [], [], supply⟩
  cons : ∀ site index child rest supply,
    let first := mount (site.child index) child supply
    let others := mountChildren site rest first.supply
    P (site.child index) child supply first → Q site rest first.supply others →
      Q site ((index, child) :: rest) supply
        ⟨first.value :: others.value, first.steps ++ others.steps,
          first.effects ++ others.effects, others.supply⟩

namespace MountInduction

variable {P : Site → Spine → Supply → Outcome Mounted → Prop}
  {Q : Site → List (UInt32 × Spine) → Supply → Outcome (List Mounted) → Prop}

mutual
theorem mount (cases : MountInduction P Q) (site : Site) (spine : Spine) (supply : Supply) :
    P site spine supply (Mounted.mount site spine supply) := by
  cases spine with
  | empty => exact cases.empty site supply
  | text content => exact cases.text site content supply
  | element tag children attributes =>
      rw [mount_element]
      exact cases.element site tag children attributes supply (cases.mountChildren site children _)
  | component id name content behaviour =>
      rw [mount_component]
      exact cases.component site id name content behaviour supply (cases.mount _ content _)

theorem mountChildren (cases : MountInduction P Q) (site : Site)
    (children : List (UInt32 × Spine)) (supply : Supply) :
    Q site children supply (Mounted.mountChildren site children supply) := by
  cases children with
  | nil => exact cases.nil site supply
  | cons entry rest =>
      obtain ⟨index, child⟩ := entry
      rw [mountChildren_cons]
      exact cases.cons site index child rest supply (cases.mount _ child _)
        (cases.mountChildren site rest _)
end

end MountInduction

/-- What holds of turning every kind of node into the same kind of node, and of replacing it. -/
structure ReconcileInduction (P : Site → Mounted → Spine → Supply → Outcome Mounted → Prop)
    (Q : Site → List (Option Mounted) → List (UInt32 × Spine) → Supply →
      Outcome (List Mounted) → Prop) : Prop where
  replace : ∀ site old spine supply, ¬ Fits site old spine →
    P site old spine supply (replace site old spine supply)
  empty : ∀ site supply, P site .empty .empty supply ⟨.empty, [], [], supply⟩
  text : ∀ site before content supply,
    P site (.text before) (.text content) supply ⟨.text content, [], [], supply⟩
  element : ∀ site (node : MountedElement) oldChildren children attributes supply,
    let new := rendered site node.tag attributes node.handle
    let changed := node.props.ref? ≠ new.props.ref?
    let assigned := Matching.assign key oldChildren (childKeys children)
    let inner := reconcileChildren site assigned.1 children supply
    Q site assigned.1 children supply inner →
      P site (.element node oldChildren) (.element node.tag children attributes) supply
        ⟨.element new inner.value,
          detachments (if changed then node.props.ref? else none) ++
            .syncHandle node.handle new.props :: (inner.steps ++ unmountAll assigned.2),
          inner.effects ++ attachments (if changed then new.props.ref? else none) node.handle,
          inner.supply⟩
  component : ∀ site (identity : Instance) old name content behaviour supply,
    let inner := reconcile identity.site old content supply
    identity.session = site.context.session →
    P identity.site old content supply inner →
      P site (.component identity old) (.component identity.component name content behaviour)
        supply
        ⟨.component identity inner.value,
          .receive identity.id ⟨content, behaviour⟩ :: .declare identity.site content ::
            inner.steps,
          inner.effects, inner.supply⟩
  nil : ∀ site matched supply, Q site matched [] supply ⟨[], [], [], supply⟩
  kept : ∀ site old matched index child rest supply,
    let first := reconcile (site.child index) old child supply
    let others := reconcileChildren site matched rest first.supply
    P (site.child index) old child supply first → Q site matched rest first.supply others →
      Q site (some old :: matched) ((index, child) :: rest) supply
        ⟨first.value :: others.value, first.steps ++ others.steps,
          first.effects ++ others.effects, others.supply⟩
  new : ∀ site (matched : List (Option Mounted)) index child rest supply,
    let first := mount (site.child index) child supply
    let others := reconcileChildren site matched.tail rest first.supply
    matched.head?.join = none → Q site matched.tail rest first.supply others →
      Q site matched ((index, child) :: rest) supply
        ⟨first.value :: others.value, first.steps ++ others.steps,
          first.effects ++ others.effects, others.supply⟩

namespace ReconcileInduction

variable {P : Site → Mounted → Spine → Supply → Outcome Mounted → Prop}
  {Q : Site → List (Option Mounted) → List (UInt32 × Spine) → Supply →
    Outcome (List Mounted) → Prop}

mutual
theorem reconcile (cases : ReconcileInduction P Q) (site : Site) (old : Mounted) (spine : Spine)
    (supply : Supply) : P site old spine supply (Mounted.reconcile site old spine supply) := by
  rcases reconcile_eq_replace_or site old spine with ⟨other, replaced⟩ | ⟨rfl, rfl⟩ |
    ⟨before, content, rfl, rfl⟩ | ⟨node, oldChildren, tag, children, attributes, rfl, rfl, rfl⟩ |
    ⟨identity, child, id, name, content, behaviour, rfl, rfl, session, rfl⟩
  · rw [replaced]
    exact cases.replace site old spine supply other
  · exact cases.empty site supply
  · exact cases.text site before content supply
  · rw [reconcile_element site rfl]
    exact cases.element site node oldChildren children attributes supply
      (cases.reconcileChildren site _ children supply)
  · rw [reconcile_component site ⟨session, rfl⟩]
    exact cases.component site identity child name content behaviour supply session
      (cases.reconcile _ child content supply)
termination_by sizeOf spine

theorem reconcileChildren (cases : ReconcileInduction P Q) (site : Site)
    (matched : List (Option Mounted)) (children : List (UInt32 × Spine)) (supply : Supply) :
    Q site matched children supply (Mounted.reconcileChildren site matched children supply) := by
  match children with
  | [] => exact cases.nil site matched supply
  | (index, child) :: rest =>
      match matched with
      | some old :: matched =>
          rw [reconcileChildren_kept]
          exact cases.kept site old matched index child rest supply
            (cases.reconcile _ old child supply) (cases.reconcileChildren site matched rest _)
      | none :: matched =>
          rw [reconcileChildren_new site rfl]
          exact cases.new site (none :: matched) index child rest supply rfl
            (cases.reconcileChildren site matched rest _)
      | [] =>
          rw [reconcileChildren_new site rfl]
          exact cases.new site [] index child rest supply rfl
            (cases.reconcileChildren site [] rest _)
termination_by sizeOf children
end

end ReconcileInduction

/-- What holds of turning trees that were matched, or nothing, into what spines render to at one
    site, one after another. -/
structure EachInduction (site : Site)
    (P : List (Option Mounted × Spine) → Supply → Outcome (List Mounted) → Prop) : Prop where
  nil : ∀ supply, P [] supply ⟨[], [], [], supply⟩
  new : ∀ spine rest supply,
    let first := mount site spine supply
    let others := reconcileEach site rest first.supply
    P rest first.supply others →
      P ((none, spine) :: rest) supply
        ⟨first.value :: others.value, first.steps ++ others.steps, first.effects ++ others.effects,
          others.supply⟩
  kept : ∀ old spine rest supply,
    let first := reconcile site old spine supply
    let others := reconcileEach site rest first.supply
    P rest first.supply others →
      P ((some old, spine) :: rest) supply
        ⟨first.value :: others.value, first.steps ++ others.steps, first.effects ++ others.effects,
          others.supply⟩

theorem EachInduction.each {site : Site}
    {P : List (Option Mounted × Spine) → Supply → Outcome (List Mounted) → Prop}
    (cases : EachInduction site P) (pairs : List (Option Mounted × Spine)) (supply : Supply) :
    P pairs supply (reconcileEach site pairs supply) := by
  induction pairs generalizing supply with
  | nil => exact cases.nil supply
  | cons pair rest ih =>
      obtain ⟨matched, spine⟩ := pair
      rw [reconcileEach_cons]
      cases matched with
      | none => exact cases.new spine rest supply (ih _)
      | some old => exact cases.kept old spine rest supply (ih _)

/-- What holds of rendering other content in a component, on every way that leads to it. -/
structure RerenderInduction (id : InstanceId) (content : Spine)
    (P : Mounted → Supply → Outcome Mounted → Prop)
    (Q : List Mounted → Supply → Outcome (List Mounted) → Prop) : Prop where
  empty : ∀ supply, P .empty supply ⟨.empty, [], [], supply⟩
  text : ∀ written supply, P (.text written) supply ⟨.text written, [], [], supply⟩
  element : ∀ node children supply,
    let inner := rerenderFirst id content children supply
    Q children supply inner →
      P (.element node children) supply
        ⟨.element node inner.value, inner.steps, inner.effects, inner.supply⟩
  here : ∀ (identity : Instance) child supply,
    let inner := reconcile identity.site child content supply
    identity.id = id →
      P (.component identity child) supply
        ⟨.component identity inner.value, .declare identity.site content :: inner.steps,
          inner.effects, inner.supply⟩
  inside : ∀ (identity : Instance) child supply,
    let inner := rerender id content child supply
    identity.id ≠ id → P child supply inner →
      P (.component identity child) supply
        ⟨.component identity inner.value, inner.steps, inner.effects, inner.supply⟩
  nil : ∀ supply, Q [] supply ⟨[], [], [], supply⟩
  first : ∀ tree rest supply,
    let inner := rerender id content tree supply
    tree.holds id = true → P tree supply inner →
      Q (tree :: rest) supply ⟨inner.value :: rest, inner.steps, inner.effects, inner.supply⟩
  later : ∀ tree rest supply,
    let inner := rerenderFirst id content rest supply
    tree.holds id ≠ true → Q rest supply inner →
      Q (tree :: rest) supply ⟨tree :: inner.value, inner.steps, inner.effects, inner.supply⟩

namespace RerenderInduction

variable {id : InstanceId} {content : Spine} {P : Mounted → Supply → Outcome Mounted → Prop}
  {Q : List Mounted → Supply → Outcome (List Mounted) → Prop}

mutual
theorem rerender (cases : RerenderInduction id content P Q) (tree : Mounted) (supply : Supply) :
    P tree supply (Mounted.rerender id content tree supply) := by
  cases tree with
  | empty => exact cases.empty supply
  | text written => exact cases.text written supply
  | element node children =>
      rw [rerender_element]
      exact cases.element node children supply (cases.rerenderFirst children supply)
  | component identity child =>
      by_cases here : identity.id = id
      · subst here
        rw [rerender_here]
        exact cases.here identity child supply rfl
      · rw [rerender_inside content here]
        exact cases.inside identity child supply here (cases.rerender child supply)

theorem rerenderFirst (cases : RerenderInduction id content P Q) (trees : List Mounted)
    (supply : Supply) : Q trees supply (Mounted.rerenderFirst id content trees supply) := by
  cases trees with
  | nil => exact cases.nil supply
  | cons tree rest =>
      by_cases held : tree.holds id = true
      · rw [rerenderFirst_here content held]
        exact cases.first tree rest supply held (cases.rerender tree supply)
      · rw [rerenderFirst_later content held]
        exact cases.later tree rest supply held (cases.rerenderFirst rest supply)
end

end RerenderInduction

/-- What a tree keeps when other content is rendered in it, several trees keep when it is rendered
    in one of them. -/
theorem forall_mem_rerenderFirst {id : InstanceId} {content : Spine} {P : Mounted → Prop}
    (again : ∀ tree supply, P tree → P (rerender id content tree supply).value)
    {trees : List Mounted} (all : ∀ tree ∈ trees, P tree) (supply : Supply) :
    ∀ tree ∈ (rerenderFirst id content trees supply).value, P tree := by
  induction trees with
  | nil => exact all
  | cons tree rest ih =>
      obtain ⟨here, there⟩ := List.forall_mem_cons.mp all
      by_cases held : tree.holds id = true
      · rw [rerenderFirst_here content held]
        exact List.forall_mem_cons.mpr ⟨again tree supply here, there⟩
      · rw [rerenderFirst_later content held]
        exact List.forall_mem_cons.mpr ⟨here, ih there⟩

/-- What is done when other content is rendered in a component: if it is there it declares the
    content and is reconciled with it, and otherwise nothing is done. -/
inductive Rerenders (id : InstanceId) (content : Spine) (supply : Supply) :
    Bool → List Step → List Effect → Supply → Prop
  | absent : Rerenders id content supply false [] [] supply
  | here (identity : Instance) (child : Mounted) (named : identity.id = id) :
      Rerenders id content supply true
        (.declare identity.site content :: (reconcile identity.site child content supply).steps)
        (reconcile identity.site child content supply).effects
        (reconcile identity.site child content supply).supply

theorem rerenders (id : InstanceId) (content : Spine) :
    RerenderInduction id content
      (fun tree supply outcome =>
        Rerenders id content supply (tree.holds id) outcome.steps outcome.effects outcome.supply)
      (fun trees supply outcome =>
        Rerenders id content supply (anyHolds id trees) outcome.steps outcome.effects
          outcome.supply) where
  empty _ := .absent
  text _ _ := .absent
  element _ _ _ inner := inner
  here identity child supply named := by
    have held : (component identity child).holds id = true := by simp [holds, named]
    rw [held]
    exact .here identity child named
  inside identity child supply other inner := by
    have same : (component identity child).holds id = child.holds id := by simp [holds, other]
    rw [same]
    exact inner
  nil _ := .absent
  first tree rest supply held inner := by
    have same : anyHolds id (tree :: rest) = tree.holds id := by simp [anyHolds, held]
    rw [same]
    exact inner
  later tree rest supply absent inner := by
    have same : anyHolds id (tree :: rest) = anyHolds id rest := by simp [anyHolds, absent]
    rw [same]
    exact inner

end Mounted

end RemoteView
