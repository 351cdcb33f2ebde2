import RemoteView.Proofs.Mounted.Apart
import RemoteView.Proofs.Mounted.Turnover

/-! # The handles of elements

What reconciling does to the handles of elements. Each belongs to the content of one instance, or to
the root; an element that stays keeps its handle there, and every other handle is new. Refs are
attached to the handles of the new tree only, in the contexts that these belong to.
-/

namespace RemoteView

/-- A handle, and the instance whose content its element belongs to. -/
abbrev Holding := ObjectId × Option InstanceId

namespace Mounted

mutual
/-- The handles in a tree that belongs to the content of an instance, or to the root. -/
def holdings (owner : Option InstanceId) : Mounted → List Holding
  | .empty => []
  | .text _ => []
  | .element node children => (node.handle, owner) :: childHoldings owner children
  | .component identity child => holdings (some identity.id) child

/-- The handles in a list of trees. -/
def childHoldings (owner : Option InstanceId) : List Mounted → List Holding
  | [] => []
  | child :: rest => holdings owner child ++ childHoldings owner rest
end

mutual
theorem holdings_fst (owner : Option InstanceId) (tree : Mounted) :
    (tree.holdings owner).map Prod.fst = tree.handles := by
  cases tree with
  | empty | text => rfl
  | element node children =>
      simp only [holdings, handles, List.map_cons, childHoldings_fst owner children]
  | component identity child => exact holdings_fst (some identity.id) child

theorem childHoldings_fst (owner : Option InstanceId) (trees : List Mounted) :
    (childHoldings owner trees).map Prod.fst = childHandles trees := by
  cases trees with
  | nil => rfl
  | cons tree rest =>
      simp only [childHoldings, childHandles, List.map_append, holdings_fst owner tree,
        childHoldings_fst owner rest]
end

theorem collects_holdings (owner : Option InstanceId) :
    Collects (holdings owner) (childHoldings owner) := ⟨rfl, fun _ _ => rfl⟩

theorem childHoldings_append (owner : Option InstanceId) (left right : List Mounted) :
    childHoldings owner (left ++ right) = childHoldings owner left ++ childHoldings owner right :=
  (collects_holdings owner).append left right

theorem perm_childHoldings (owner : Option InstanceId) {trees others : List Mounted}
    (same : trees.Perm others) :
    (childHoldings owner trees).Perm (childHoldings owner others) :=
  (collects_holdings owner).perm same

section MapNodes

variable {change : MountedElement → MountedElement}

mutual
theorem holdings_mapNodes (keeps : KeepsPlace change) (owner : Option InstanceId)
    (tree : Mounted) : (mapNodes change tree).holdings owner = tree.holdings owner := by
  cases tree with
  | empty | text => rfl
  | element node children =>
      simp only [mapNodes, holdings, keeps.handle, childHoldings_mapChildren keeps owner children]
  | component identity child => exact holdings_mapNodes keeps (some identity.id) child

theorem childHoldings_mapChildren (keeps : KeepsPlace change) (owner : Option InstanceId)
    (trees : List Mounted) :
    childHoldings owner (mapChildren change trees) = childHoldings owner trees := by
  cases trees with
  | nil => rfl
  | cons tree rest =>
      simp only [mapChildren, childHoldings, holdings_mapNodes keeps owner tree,
        childHoldings_mapChildren keeps owner rest]
end

end MapNodes

mutual
/-- Outside of all instances in it, a tree belongs to its owner. -/
theorem owner_of_holding {owner : Option InstanceId} {tree : Mounted} {holding : Holding}
    (member : holding ∈ tree.holdings owner) :
    holding.2 = owner ∨ ∃ identity ∈ tree.instances, holding.2 = some identity.id := by
  cases tree with
  | empty | text => simp [holdings] at member
  | element node children =>
      rcases List.mem_cons.mp member with rfl | inside
      · exact .inl rfl
      · exact owner_of_childHolding inside
  | component identity child =>
      have inner : holding ∈ child.holdings (some identity.id) := member
      refine .inr ?_
      rcases owner_of_holding inner with own | ⟨other, inside, same⟩
      · exact ⟨identity, List.mem_cons_self .., own⟩
      · exact ⟨other, List.mem_cons_of_mem _ inside, same⟩

theorem owner_of_childHolding {owner : Option InstanceId} {trees : List Mounted}
    {holding : Holding} (member : holding ∈ childHoldings owner trees) :
    holding.2 = owner ∨ ∃ identity ∈ childInstances trees, holding.2 = some identity.id := by
  cases trees with
  | nil => simp [childHoldings] at member
  | cons tree rest =>
      rcases List.mem_append.mp member with here | there
      · refine (owner_of_holding here).imp_right ?_
        rintro ⟨identity, inside, same⟩
        exact ⟨identity, List.mem_append_left _ inside, same⟩
      · refine (owner_of_childHolding there).imp_right ?_
        rintro ⟨identity, inside, same⟩
        exact ⟨identity, List.mem_append_right _ inside, same⟩
end

mutual
theorem holding_of_without {id : InstanceId} {owner : Option InstanceId} {tree : Mounted}
    {holding : Holding} (member : holding ∈ (tree.without id).holdings owner) :
    holding ∈ tree.holdings owner := by
  cases tree with
  | empty | text => exact member
  | element node children =>
      rcases List.mem_cons.mp member with rfl | inside
      · exact List.mem_cons_self ..
      · exact List.mem_cons_of_mem _ (holding_of_eachWithout inside)
  | component identity child =>
      unfold without at member
      split at member
      · simp [holdings] at member
      · have inside : holding ∈ (child.without id).holdings (some identity.id) := member
        have kept := holding_of_without inside
        exact kept

theorem holding_of_eachWithout {id : InstanceId} {owner : Option InstanceId}
    {trees : List Mounted} {holding : Holding}
    (member : holding ∈ childHoldings owner (eachWithout id trees)) :
    holding ∈ childHoldings owner trees := by
  cases trees with
  | nil => exact member
  | cons tree rest =>
      rcases List.mem_append.mp member with here | there
      · exact List.mem_append_left _ (holding_of_without here)
      · exact List.mem_append_right _ (holding_of_eachWithout there)
end

end Mounted

/-! ## What becomes of handles -/

/-- The handle that a step creates. -/
def Step.created? : Step → Option ObjectId
  | .createHandle handle _ _ => some handle
  | _ => none

/-- What becomes of the handles of a tree by steps and effects that take numbers from `start` on, up
    to `finish`. -/
structure Handover (start : ObjectId) (before after : List Holding) (steps : List Step)
    (effects : List Effect) (finish : ObjectId) : Prop where
  grows : start ≤ finish
  count : ∀ handle, (after.map Prod.fst).count handle ≤
    (before.map Prod.fst).count handle + if start ≤ handle ∧ handle < finish then 1 else 0
  known : ∀ holding ∈ after,
    holding ∈ before ∨ ∃ step ∈ steps, step.created? = some holding.1
  created : ∀ step ∈ steps, ∀ handle, step.created? = some handle → start ≤ handle
  attached : ∀ effect ∈ effects, ∀ id handle, effect = .attachRef id handle →
    (handle, id.context.instance?) ∈ after

namespace Handover

variable {start middle finish : ObjectId} {before before' after after' : List Holding}
  {steps steps' : List Step} {effects effects' : List Effect}

theorem drop (kept : after.Sublist before) (none : ∀ step ∈ steps, step.created? = none) :
    Handover start before after steps [] start where
  grows := Nat.le_refl _
  count handle := Nat.le_add_right_of_le ((kept.map Prod.fst).count_le handle)
  known holding member := .inl (kept.subset member)
  created step member handle made := by
    rw [none step member] at made
    cases made
  attached := by simp

theorem still (holdings : List Holding) (start : ObjectId) :
    Handover start holdings holdings [] [] start :=
  drop (List.Sublist.refl _) (by simp)

theorem append (first : Handover start before after steps effects middle)
    (second : Handover middle before' after' steps' effects' finish) :
    Handover start (before ++ before') (after ++ after') (steps ++ steps') (effects ++ effects')
      finish where
  grows := Nat.le_trans first.grows second.grows
  count handle := by
    have left := first.count handle
    have right := second.count handle
    have order := first.grows
    have order' := second.grows
    simp only [List.map_append, List.count_append, ObjectId] at *
    split at left <;> split at right <;> split <;> omega
  known holding member := by
    simp only [List.mem_append]
    rcases List.mem_append.mp member with here | there
    · rcases first.known holding here with old | ⟨step, done, new⟩
      · exact .inl (.inl old)
      · exact .inr ⟨step, .inl done, new⟩
    · rcases second.known holding there with old | ⟨step, done, new⟩
      · exact .inl (.inr old)
      · exact .inr ⟨step, .inr done, new⟩
  created step member handle made := by
    rcases List.mem_append.mp member with here | there
    · exact first.created step here handle made
    · exact Nat.le_trans first.grows (second.created step there handle made)
  attached effect member id handle same := by
    rcases List.mem_append.mp member with here | there
    · exact List.mem_append_left _ (first.attached effect here id handle same)
    · exact List.mem_append_right _ (second.attached effect there id handle same)

theorem of_perm (handover : Handover start before after steps effects finish)
    (same : before.Perm before') : Handover start before' after steps effects finish where
  grows := handover.grows
  count handle := by
    rw [← (same.map Prod.fst).count_eq]
    exact handover.count handle
  known holding member := (handover.known holding member).imp_left same.mem_iff.mp
  created := handover.created
  attached := handover.attached

theorem attach (handover : Handover start before after steps effects finish) {ref : Option RefId}
    {handle : ObjectId} (there : ∀ id, ref = some id → (handle, id.context.instance?) ∈ after) :
    Handover start before after steps (effects ++ Mounted.attachments ref handle) finish :=
  { handover with
    attached := by
      intro effect member id other same
      rcases List.mem_append.mp member with here | attached
      · exact handover.attached effect here id other same
      · obtain ⟨found, isRef, rfl⟩ := Option.map_eq_some_iff.mp (Option.mem_toList.mp attached)
        obtain ⟨rfl, rfl⟩ := Effect.attachRef.inj same
        exact there found isRef }

theorem mounted (handover : Handover start before after steps effects finish) (id : InstanceId) :
    Handover start before after steps (effects ++ [.didMount id]) finish :=
  { handover with
    attached := by
      intro effect member ref handle same
      rcases List.mem_append.mp member with here | last
      · exact handover.attached effect here ref handle same
      · rw [List.mem_singleton.mp last] at same
        cases same }

theorem create (start : ObjectId) (owner : Option InstanceId) (tag : String) (props : Props) :
    Handover start [] [(start, owner)] [.createHandle start tag props] [] (start + 1) where
  grows := Nat.le_succ _
  count handle := by
    simp only [List.map_cons, List.map_nil, List.count_singleton, List.count_nil, ObjectId,
      beq_iff_eq]
    split <;> split <;> omega
  known holding member := by
    obtain rfl := List.mem_singleton.mp member
    exact .inr ⟨_, List.mem_singleton_self _, rfl⟩
  created step member handle made := by
    obtain rfl := List.mem_singleton.mp member
    obtain rfl := Option.some.inj made
    exact Nat.le_refl _
  attached := by simp

theorem after_steps (handover : Handover start before after steps effects finish)
    (done : List Step) (none : ∀ step ∈ done, step.created? = none) :
    Handover start before after (done ++ steps) effects finish := by
  have nothing : Handover start [] [] done [] start := drop (List.Sublist.refl _) none
  exact nothing.append handover

end Handover

namespace Mounted

mutual
theorem created_unmount (tree : Mounted) : ∀ step ∈ tree.unmount, step.created? = none := by
  cases tree with
  | empty | text => simp [unmount]
  | element node children =>
      intro step member
      rcases List.mem_append.mp member with own | inside
      · obtain ⟨id, -, rfl⟩ := Option.map_eq_some_iff.mp (Option.mem_toList.mp own)
        rfl
      · exact created_unmountAll children step inside
  | component identity child =>
      intro step member
      simp only [unmount, List.mem_cons, List.mem_append, List.not_mem_nil, or_false] at member
      rcases member with rfl | inside | rfl
      · rfl
      · exact created_unmount child step inside
      · rfl

theorem created_unmountAll (trees : List Mounted) :
    ∀ step ∈ unmountAll trees, step.created? = none := by
  cases trees with
  | nil => simp [unmountAll]
  | cons tree rest =>
      intro step member
      rcases List.mem_append.mp member with here | there
      · exact created_unmount tree step here
      · exact created_unmountAll rest step there
end

theorem mount_handover :
    MountInduction
      (fun site _ supply outcome => Handover supply.nextObject []
        (outcome.value.holdings site.context.instance?) outcome.steps outcome.effects
        outcome.supply.nextObject)
      (fun site _ supply outcome => Handover supply.nextObject []
        (childHoldings site.context.instance? outcome.value) outcome.steps outcome.effects
        outcome.supply.nextObject) where
  empty _ _ := .still [] _
  text _ _ _ := .still [] _
  element site tag _ attributes supply inner := by
    have created := Handover.create supply.nextObject site.context.instance? tag
      (rendered site tag attributes supply.nextObject).props
    refine (created.append inner).attach fun id found => ?_
    rw [context_of_ref found]
    exact List.mem_cons_self ..
  component site id _ content behaviour supply inner :=
    (inner.after_steps [_, _] (by simp [Step.created?])).mounted _
  nil _ _ := .still [] _
  cons _ _ _ _ _ first others := first.append others

theorem reconcile_handover :
    ReconcileInduction
      (fun site old _ supply outcome => Handover supply.nextObject
        (old.holdings site.context.instance?) (outcome.value.holdings site.context.instance?)
        outcome.steps outcome.effects outcome.supply.nextObject)
      (fun site matched _ supply outcome => Handover supply.nextObject
        (childHoldings site.context.instance? (matched.filterMap id))
        (childHoldings site.context.instance? outcome.value) outcome.steps outcome.effects
        outcome.supply.nextObject) where
  replace site old spine supply _ := by
    have left : Handover supply.nextObject (old.holdings site.context.instance?) [] old.unmount []
        supply.nextObject := .drop (List.nil_sublist _) (created_unmount old)
    simpa [replace_apply] using left.append (mount_handover.mount site spine supply)
  empty _ _ := .still [] _
  text _ _ _ _ := .still [] _
  nil _ _ _ := .drop (List.nil_sublist _) (by simp)
  element site node oldChildren children attributes supply inner := by
    have all := perm_childHoldings site.context.instance?
      (Matching.perm_assign key oldChildren (childKeys children))
    rw [childHoldings_append] at all
    have kept : Handover supply.nextObject [(node.handle, site.context.instance?)]
        [(node.handle, site.context.instance?)] [] [] supply.nextObject :=
      .drop (List.Sublist.refl _) (by simp)
    have left (later : ObjectId) : Handover later (childHoldings site.context.instance?
          (Matching.assign key oldChildren (childKeys children)).2) []
        (unmountAll (Matching.assign key oldChildren (childKeys children)).2) [] later :=
      .drop (List.nil_sublist _) (created_unmountAll _)
    have detached (ref : Option RefId) : ∀ step ∈ detachments ref, step.created? = none := by
      cases ref <;> simp [detachments, Step.created?]
    have turned := ((kept.append (inner.append (left _))).of_perm (all.cons _)).after_steps
      (detachments (if node.props.ref? ≠ (rendered site node.tag attributes node.handle).props.ref?
        then node.props.ref? else none) ++
          [.syncHandle node.handle (rendered site node.tag attributes node.handle).props])
      (by
        intro step member
        rcases List.mem_append.mp member with gone | written
        · exact detached _ step gone
        · rw [List.mem_singleton.mp written]
          rfl)
    refine Handover.attach (by simpa [holdings] using turned) fun id found => ?_
    split at found
    · rw [context_of_ref found]
      exact List.mem_cons_self ..
    · cases found
  component site identity old _ content behaviour supply _ inner :=
    inner.after_steps [_, _] (by simp [Step.created?])
  kept _ _ _ _ _ _ _ first others := first.append others
  new site matched index child rest supply none others := by
    have both := (mount_handover.mount (site.child index) child supply).append others
    rcases matched with _ | ⟨_ | old, others⟩
    · exact both
    · exact both
    · cases none

theorem reconcileEach_handover (site : Site) :
    EachInduction site fun pairs supply outcome =>
      Handover supply.nextObject
        (childHoldings site.context.instance? ((pairs.map Prod.fst).filterMap id))
        (childHoldings site.context.instance? outcome.value) outcome.steps outcome.effects
        outcome.supply.nextObject where
  nil _ := .still [] _
  new spine _ supply others := (mount_handover.mount site spine supply).append others
  kept old spine _ supply others :=
    (reconcile_handover.reconcile site old spine supply).append others

theorem handover_reconcileAll (site : Site) (old : List Mounted) (spines : List Spine)
    (supply : Supply) :
    let outcome := reconcileAll site old spines supply
    Handover supply.nextObject (childHoldings site.context.instance? old)
      (childHoldings site.context.instance? outcome.value) outcome.steps outcome.effects
      outcome.supply.nextObject := by
  rw [reconcileAll_apply]
  have all := perm_childHoldings site.context.instance?
    (Matching.perm_assign key old (spines.map (Spine.keyAt site.key)))
  rw [childHoldings_append] at all
  have each := (reconcileEach_handover site).each
    ((Matching.assign key old (spines.map (Spine.keyAt site.key))).1.zip spines) supply
  rw [List.map_fst_zip (by simp)] at each
  have left (later : ObjectId) : Handover later (childHoldings site.context.instance?
        (Matching.assign key old (spines.map (Spine.keyAt site.key))).2) []
      (unmountAll (Matching.assign key old (spines.map (Spine.keyAt site.key))).2) [] later :=
    .drop (List.nil_sublist _) (created_unmountAll _)
  simpa using (each.append (left _)).of_perm all

theorem rerender_handover (id : InstanceId) (content : Spine) :
    RerenderInduction id content
      (fun tree supply outcome => ∀ owner, Handover supply.nextObject (tree.holdings owner)
        (outcome.value.holdings owner) outcome.steps outcome.effects outcome.supply.nextObject)
      (fun trees supply outcome => ∀ owner, Handover supply.nextObject (childHoldings owner trees)
        (childHoldings owner outcome.value) outcome.steps outcome.effects
        outcome.supply.nextObject) where
  empty _ _ := .still _ _
  text _ _ _ := .still _ _
  element node _ _ inner owner := (Handover.still [(node.handle, owner)] _).append (inner owner)
  here identity child supply _ _ :=
    (reconcile_handover.reconcile identity.site child content supply).after_steps [_]
      (by simp [Step.created?])
  inside identity _ _ _ inner _ := inner (some identity.id)
  nil _ _ := .still _ _
  first tree rest _ _ inner owner := by
    simpa [childHoldings] using (inner owner).append (.still (childHoldings owner rest) _)
  later tree _ _ _ inner owner := (Handover.still (tree.holdings owner) _).append (inner owner)

end Mounted

end RemoteView
