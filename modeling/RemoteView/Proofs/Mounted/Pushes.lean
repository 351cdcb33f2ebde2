import RemoteView.Proofs.Mounted.Carriers
import RemoteView.Proofs.Mounted.Handles
import RemoteView.Proofs.Mounted.Within

/-! # What is pushed for elements

Rendering a spine pushes attributes for the elements of the tree that shows it. An element keeps
what was pushed for it until something else is pushed, and so do the listener and the value of a
controlled input.
-/

namespace RemoteView

/-- The attributes that a rendering pushes for the element with a handle, and where it stands. -/
structure Push where
  handle : ObjectId
  site : Site
  attributes : List Attribute

namespace Push

def props (push : Push) : Props :=
  .ofAttributes push.site.context push.site.path push.attributes

/-- The text that is pushed for an input: that of the value written last, or none if that is null or
    nothing writes a value. -/
def text (push : Push) : String :=
  ((Attribute.valueWriting? valueProperty push.attributes).bind ControlledInput.textOf?).getD ""

/-- The listener for changes that is pushed. -/
def listener? (push : Push) : Option ListenerId :=
  (Attribute.listenerWriting? changeProperty push.attributes).map fun declared =>
    ⟨push.site.context, push.site.path, declared.fid⟩

/-- The element with a tag that has just been handed what is pushed for it. -/
def rendered (push : Push) (tag : String) : MountedElement :=
  Mounted.rendered push.site tag push.attributes push.handle

theorem pushedValue_props (push : Push) :
    ControlledInput.pushedValue push.props = push.text := by
  rw [ControlledInput.pushedValue, props, Attribute.value?_ofAttributes, text]

theorem listener?_props (push : Push) :
    push.props.listener? changeProperty = push.listener?.map .listener := by
  rw [props, Attribute.listener?_ofAttributes, listener?, Option.map_map]
  rfl

/-- What was pushed last for a handle. -/
def last? (handle : ObjectId) (pushed : List Push) : Option Push :=
  pushed.reverse.find? (·.handle = handle)

theorem last?_append (handle : ObjectId) (pushed later : List Push) :
    last? handle (pushed ++ later) = (last? handle later).or (last? handle pushed) := by
  rw [last?, List.reverse_append, List.find?_append]
  rfl

theorem last?_eq_none_iff {handle : ObjectId} {pushed : List Push} :
    last? handle pushed = none ↔ ∀ push ∈ pushed, push.handle ≠ handle := by
  simp [last?]

theorem last?_of_mem {pushed : List Push} (once : (pushed.map Push.handle).Nodup) {push : Push}
    (among : push ∈ pushed) : last? push.handle pushed = some push := by
  induction pushed with
  | nil => cases among
  | cons first rest ih =>
      obtain ⟨new, others⟩ := List.nodup_cons.mp once
      have split : last? push.handle (first :: rest) =
          (last? push.handle rest).or (last? push.handle [first]) := last?_append _ [first] rest
      rw [split]
      rcases List.mem_cons.mp among with rfl | later
      · have absent : last? push.handle rest = none := by
          rw [last?_eq_none_iff]
          intro other member same
          exact new (List.mem_map.mpr ⟨other, member, same⟩)
        rw [absent]
        simp [last?]
      · rw [ih others later, Option.some_or]

end Push

/-- An element is in step with what was pushed for it: it stands there with its properties, and as
    an input it takes over the listener, but has a value of its own. -/
structure MountedElement.InStep (push : Push) (node : MountedElement) : Prop where
  key : node.key = push.site.key
  handle : node.handle = push.handle
  props : node.props = Mounted.propsWith node.handle node.input push.props
  adapter : node.input.isSome ↔ node.tag = inputTag
  forwardTo : ∀ input, node.input = some input → input.forwardTo = push.listener?.map .listener

theorem Push.inStep_rendered (push : Push) (tag : String) :
    (push.rendered tag).InStep push where
  key := rfl
  handle := rfl
  props := rfl
  adapter := by
    simp only [rendered, Mounted.rendered, Mounted.inputFor]
    split <;> simp_all
  forwardTo input found := by
    simp only [rendered, Mounted.rendered, Mounted.inputFor] at found
    split at found
    · obtain rfl := Option.some.inj found
      exact push.listener?_props
    · cases found

theorem Push.value_rendered {push : Push} {tag : String} {input : ControlledInput}
    (found : (push.rendered tag).input = some input) : input.value = push.text := by
  simp only [rendered, Mounted.rendered, Mounted.inputFor] at found
  split at found
  · obtain rfl := Option.some.inj found
    exact push.pushedValue_props
  · cases found

namespace Mounted

mutual
/-- What rendering a spine at a site pushes for the elements of the tree that shows it. -/
def pushes (site : Site) : Spine → Mounted → List Push
  | .element _ children attributes, .element node trees =>
      ⟨node.handle, site, attributes⟩ :: childPushes site children trees
  | .component _ _ content _, .component identity child => pushes identity.site content child
  | _, _ => []

/-- What rendering the children of an element pushes. -/
def childPushes (site : Site) : List (UInt32 × Spine) → List Mounted → List Push
  | (index, child) :: rest, tree :: trees =>
      pushes (site.child index) child tree ++ childPushes site rest trees
  | _, _ => []
end

/-- What rendering spines at one site pushes for the elements of the trees that show them. -/
def pushesAll (site : Site) (spines : List Spine) (trees : List Mounted) : List Push :=
  (spines.zip trees).flatMap fun (spine, tree) => pushes site spine tree

/-- What rendering a content in a component pushes. -/
def contentPushes (content : Spine) : Mounted → List Push
  | .component identity child => pushes identity.site content child
  | _ => []

/-- Elements have just been handed what is pushed for them, one by one. -/
def Handed (pushed : List Push) (elements : List MountedElement) : Prop :=
  List.Forall₂ (fun push node => node = push.rendered node.tag) pushed elements

theorem Handed.handles {pushed : List Push} {elements : List MountedElement}
    (handed : Handed pushed elements) :
    elements.map MountedElement.handle = pushed.map Push.handle := by
  induction handed with
  | nil => rfl
  | cons shown _ ih =>
      rw [List.map_cons, List.map_cons, ih, shown]
      rfl

theorem Handed.exists_push {pushed : List Push} {elements : List MountedElement}
    (handed : Handed pushed elements) {node : MountedElement} (among : node ∈ elements) :
    ∃ push ∈ pushed, node = push.rendered node.tag := by
  induction handed with
  | nil => cases among
  | @cons push first pushed elements shown _ ih =>
      rcases List.mem_cons.mp among with rfl | later
      · exact ⟨push, List.mem_cons_self .., shown⟩
      · obtain ⟨other, member, same⟩ := ih later
        exact ⟨other, List.mem_cons_of_mem _ member, same⟩

theorem handed_of_shows :
    ShowsInduction (fun site spine tree => Handed (pushes site spine tree) tree.elements)
      (fun site children trees => Handed (childPushes site children trees) (childElements trees))
    where
  empty _ := .nil
  text _ _ := .nil
  nil _ := .nil
  element _ _ _ _ _ _ _ inner := .cons rfl inner
  component _ _ _ _ _ _ _ _ _ _ inner := inner
  cons _ _ _ _ _ _ _ _ first others := List.rel_append first others

theorem handed_of_forall₂ {site : Site} {spines : List Spine} {trees : List Mounted}
    (shows : List.Forall₂ (Shows site) spines trees) :
    Handed (pushesAll site spines trees) (childElements trees) := by
  induction shows with
  | nil => exact .nil
  | cons first _ ih => exact List.rel_append (handed_of_shows.tree first) ih

mutual
theorem elements_handles (tree : Mounted) :
    tree.elements.map MountedElement.handle = tree.handles := by
  cases tree with
  | empty | text => rfl
  | element node children =>
      rw [elements, handles, List.map_cons, childElements_handles children]
  | component identity child => exact elements_handles child

theorem childElements_handles (trees : List Mounted) :
    (childElements trees).map MountedElement.handle = childHandles trees := by
  cases trees with
  | nil => rfl
  | cons tree rest =>
      rw [childElements, childHandles, List.map_append, elements_handles tree,
        childElements_handles rest]
end

theorem collectsNodes_elements :
    CollectsNodes elements childElements (fun node => [node]) fun _ => [] where
  nil := rfl
  cons _ _ := rfl
  empty := rfl
  text _ := rfl
  element _ _ := rfl
  component _ _ := rfl

theorem perm_childElements (id : InstanceId) (trees : List Mounted) :
    (childElements trees).Perm
      (childElements (eachWithout id trees) ++ childElements (allWithin id trees)) :=
  collectsNodes_elements.perm_eachWithout id trees

theorem rerender_without (id : InstanceId) (content : Spine) :
    RerenderInduction id content
      (fun tree _ outcome => outcome.value.without id = tree.without id)
      (fun trees _ outcome => eachWithout id outcome.value = eachWithout id trees) where
  empty _ := rfl
  text _ _ := rfl
  element node _ _ inner := congrArg (element node) inner
  here identity child supply named := by simp [without, named]
  inside identity _ _ other inner := by simp only [without, if_neg other, inner]
  nil _ := rfl
  first tree rest _ _ inner := by simp only [eachWithout, inner]
  later tree rest _ _ inner := by simp only [eachWithout, inner]

/-- Of elements some were handed what is pushed, and the others were there before. -/
def Renewed (before after : List MountedElement) (pushed : List Push) : Prop :=
  ∃ kept fresh, after.Perm (kept ++ fresh) ∧ kept ⊆ before ∧ Handed pushed fresh

namespace Renewed

variable {before after : List MountedElement} {pushed : List Push}

theorem of_handed (handed : Handed pushed after) : Renewed before after pushed :=
  ⟨[], after, .refl _, List.nil_subset _, handed⟩

theorem append_kept (renewed : Renewed before after pushed) {kept : List MountedElement}
    (old : kept ⊆ before) : Renewed before (after ++ kept) pushed := by
  obtain ⟨others, fresh, perm, were, handed⟩ := renewed
  refine ⟨others ++ kept, fresh, ?_, List.append_subset.mpr ⟨were, old⟩, handed⟩
  refine (perm.append_right kept).trans ?_
  rw [List.append_assoc, List.append_assoc]
  exact List.perm_append_comm.append_left others

theorem of_perm (renewed : Renewed before after pushed) {others : List MountedElement}
    (same : after.Perm others) : Renewed before others pushed := by
  obtain ⟨kept, fresh, perm, were, handed⟩ := renewed
  exact ⟨kept, fresh, same.symm.trans perm, were, handed⟩

/-- Each element was handed what was pushed last for it, or nothing was pushed for it and it was
    there before. -/
theorem cases (renewed : Renewed before after pushed)
    (once : (after.map MountedElement.handle).Nodup) {node : MountedElement}
    (among : node ∈ after) :
    (∃ push, Push.last? node.handle pushed = some push ∧ node = push.rendered node.tag) ∨
      Push.last? node.handle pushed = none ∧ node ∈ before := by
  obtain ⟨kept, fresh, perm, were, handed⟩ := renewed
  have apart := (perm.map MountedElement.handle).nodup_iff.mp once
  rw [List.map_append, handed.handles] at apart
  rcases List.mem_append.mp (perm.mem_iff.mp among) with old | new
  · refine .inr ⟨?_, were old⟩
    rw [Push.last?_eq_none_iff]
    intro push pushedNow same
    exact List.disjoint_of_nodup_append apart (List.mem_map.mpr ⟨node, old, rfl⟩)
      (List.mem_map.mpr ⟨push, pushedNow, same⟩)
  · refine .inl ?_
    obtain ⟨push, pushedNow, shown⟩ := handed.exists_push new
    refine ⟨push, ?_, shown⟩
    have own : node.handle = push.handle := by rw [shown]; rfl
    rw [own]
    exact Push.last?_of_mem (List.nodup_append.mp apart).2.1 pushedNow

theorem exists_of_push (renewed : Renewed before after pushed) {push : Push}
    (among : push ∈ pushed) : ∃ node ∈ after, node.handle = push.handle := by
  obtain ⟨kept, fresh, perm, -, handed⟩ := renewed
  have own : push.handle ∈ fresh.map MountedElement.handle :=
    handed.handles ▸ List.mem_map_of_mem among
  obtain ⟨node, member, same⟩ := List.mem_map.mp own
  exact ⟨node, perm.mem_iff.mpr (List.mem_append_right _ member), same⟩

end Renewed

/-! ## Elements that stay -/

/-- Where an element has a handle that was given out before `start`, an element of the same tag had
    it before. -/
def TagsStay (start : ObjectId) (before after : List MountedElement) : Prop :=
  ∀ node ∈ after, start ≤ node.handle ∨
    ∃ old ∈ before, old.handle = node.handle ∧ old.tag = node.tag

namespace TagsStay

variable {start middle : ObjectId} {before before' after after' : List MountedElement}

theorem of_subset (kept : after ⊆ before) : TagsStay start before after :=
  fun node among => .inr ⟨node, kept among, rfl, rfl⟩

theorem mono (stay : TagsStay middle before after) (later : start ≤ middle)
    (more : before ⊆ before') : TagsStay start before' after := by
  intro node among
  rcases stay node among with new | ⟨old, was, same⟩
  · exact .inl (Nat.le_trans later new)
  · exact .inr ⟨old, more was, same⟩

theorem append (first : TagsStay start before after) (second : TagsStay start before after') :
    TagsStay start before (after ++ after') := by
  intro node among
  exact (List.mem_append.mp among).elim (first node) (second node)

theorem of_new {owner : Option InstanceId} {tree : Mounted} {steps : List Step}
    {effects : List Effect} {finish : ObjectId}
    (handover : Handover start [] (tree.holdings owner) steps effects finish) :
    TagsStay start before tree.elements := by
  intro node among
  have held : node.handle ∈ (tree.holdings owner).map Prod.fst := by
    rw [holdings_fst, ← elements_handles]
    exact List.mem_map_of_mem among
  have count := handover.count node.handle
  have some := List.count_pos_iff.mpr held
  split at count
  · rename_i range
    exact .inl range.1
  · rw [List.map_nil, List.count_nil] at count
    omega

end TagsStay

theorem mem_childElements {node : MountedElement} {trees : List Mounted} :
    node ∈ childElements trees ↔ ∃ tree ∈ trees, node ∈ tree.elements := by
  induction trees with
  | nil => simp [childElements]
  | cons tree rest ih => simp [childElements, ih]

theorem childElements_subset {trees others : List Mounted} (all : trees ⊆ others) :
    childElements trees ⊆ childElements others := by
  intro node among
  obtain ⟨tree, member, inside⟩ := mem_childElements.mp among
  exact mem_childElements.mpr ⟨tree, all member, inside⟩

theorem tagsStay_mount (site : Site) (spine : Spine) (supply : Supply)
    (before : List MountedElement) :
    TagsStay supply.nextObject before (mount site spine supply).value.elements :=
  .of_new (mount_handover.mount site spine supply)

theorem reconcile_tagsStay :
    ReconcileInduction
      (fun _ old _ supply outcome =>
        TagsStay supply.nextObject old.elements outcome.value.elements)
      (fun _ matched _ supply outcome =>
        TagsStay supply.nextObject (childElements (matched.filterMap id))
          (childElements outcome.value)) where
  replace site old spine supply _ := tagsStay_mount site spine supply _
  empty _ _ := .of_subset (List.Subset.refl _)
  text _ _ _ _ := .of_subset (List.Subset.refl _)
  nil _ _ _ := .of_subset (List.nil_subset _)
  element site node oldChildren children attributes supply inner := by
    have matched : (Matching.assign key oldChildren (childKeys children)).1.filterMap id ⊆
        oldChildren := fun tree member =>
      (Matching.perm_assign key oldChildren (childKeys children)).mem_iff.mp
        (List.mem_append_left _ member)
    intro other among
    rcases List.mem_cons.mp among with rfl | inside
    · exact .inr ⟨node, List.mem_cons_self .., rfl, rfl⟩
    · exact inner.mono (Nat.le_refl _) (List.subset_cons_of_subset _ (childElements_subset matched))
        other inside
  component _ _ _ _ _ _ _ _ inner := inner
  kept site old matched index child rest supply first others := by
    have grows := (reconcile_handover.reconcile (site.child index) old child supply).grows
    exact (first.mono (Nat.le_refl _) (List.subset_append_left ..)).append
      (others.mono grows (List.subset_append_right ..))
  new site matched index child rest supply none others := by
    have grows := (mount_handover.mount (site.child index) child supply).grows
    have later : matched.tail.filterMap id ⊆ matched.filterMap id := fun tree member => by
      obtain ⟨slot, among, found⟩ := List.mem_filterMap.mp member
      exact List.mem_filterMap.mpr ⟨slot, List.mem_of_mem_tail among, found⟩
    exact (tagsStay_mount (site.child index) child supply _).append
      (others.mono grows (childElements_subset later))

theorem reconcileEach_tagsStay (site : Site) :
    EachInduction site fun pairs supply outcome =>
      TagsStay supply.nextObject (childElements ((pairs.map Prod.fst).filterMap id))
        (childElements outcome.value) where
  nil _ := .of_subset (List.nil_subset _)
  new spine _ supply others := by
    have grows := (mount_handover.mount site spine supply).grows
    exact (tagsStay_mount site spine supply _).append (others.mono grows (List.Subset.refl _))
  kept old spine _ supply others := by
    have grows := (reconcile_handover.reconcile site old spine supply).grows
    have first := reconcile_tagsStay.reconcile site old spine supply
    exact (first.mono (Nat.le_refl _) (List.subset_append_left ..)).append
      (others.mono grows (List.subset_append_right ..))

theorem tagsStay_reconcileAll (site : Site) (old : List Mounted) (spines : List Spine)
    (supply : Supply) : TagsStay supply.nextObject (childElements old)
      (childElements (reconcileAll site old spines supply).value) := by
  rw [reconcileAll_apply]
  apply ((reconcileEach_tagsStay site).each _ supply).mono (Nat.le_refl _)
  apply childElements_subset
  rw [List.map_fst_zip (by simp)]
  exact fun tree member =>
    (Matching.perm_assign key old (spines.map (Spine.keyAt site.key))).mem_iff.mp
      (List.mem_append_left _ member)

theorem rerender_tagsStay (id : InstanceId) (content : Spine) :
    RerenderInduction id content
      (fun tree supply outcome =>
        TagsStay supply.nextObject tree.elements outcome.value.elements)
      (fun trees supply outcome =>
        TagsStay supply.nextObject (childElements trees) (childElements outcome.value)) where
  empty _ := .of_subset (List.Subset.refl _)
  text _ _ := .of_subset (List.Subset.refl _)
  element node children supply inner := by
    have own : TagsStay supply.nextObject (node :: childElements children) [node] :=
      .of_subset (by simp)
    exact own.append (inner.mono (Nat.le_refl _) (List.subset_cons_self ..))
  here identity child supply _ := reconcile_tagsStay.reconcile identity.site child content supply
  inside _ _ _ _ inner := inner
  nil _ := .of_subset (List.Subset.refl _)
  first _ _ _ _ inner :=
    (inner.mono (Nat.le_refl _) (List.subset_append_left ..)).append
      (.of_subset (List.subset_append_right ..))
  later tree rest supply _ inner := by
    have same : TagsStay supply.nextObject (childElements (tree :: rest)) tree.elements :=
      .of_subset (List.subset_append_left ..)
    exact same.append (inner.mono (Nat.le_refl _) (List.subset_append_right ..))

end Mounted

end RemoteView
