import RemoteView.Proofs.Mounted.Places

/-! # What is lost with a tree

When a tree is taken down it loses its refs and its instances one after another: the ref of an
element before everything in the element, an instance after everything in it. So what is lost after
a ref of an instance includes the instance, and what is lost after another ref is what comes after
its element.
-/

namespace RemoteView

/-- What a tree loses when it is taken down. -/
inductive Loss where
  | ref (id : RefId)
  | component (identity : Instance)

/-- Does a step detach a ref or let go of an instance? -/
def Step.isLoss : Step → Bool
  | .detachRef _ | .release _ => true
  | .createHandle .. | .syncHandle .. | .willUnmount _ | .instantiate .. | .receive ..
  | .declare .. => false

namespace Loss

/-- The step in which something is lost. -/
def step : Loss → Step
  | .ref id => .detachRef id
  | .component identity => .release identity.id

/-- The ref that is lost. -/
def ref? : Loss → Option RefId
  | .ref id => some id
  | .component _ => none

/-- Is it an instance of a session? -/
def isOf (session : SessionId) : Loss → Bool
  | .ref _ => false
  | .component identity => identity.session = session

/-- The refs that are lost, each with whether an instance of its session is lost later. -/
def outlived : List Loss → List (RefId × Bool)
  | [] => []
  | .ref id :: later => (id, later.any (isOf id.context.session)) :: outlived later
  | .component _ :: later => outlived later

theorem any_isOf {session : SessionId} {losses : List Loss} :
    losses.any (isOf session) = true ↔
      ∃ identity, .component identity ∈ losses ∧ identity.session = session := by
  rw [List.any_eq_true]
  constructor
  · rintro ⟨loss, among, own⟩
    cases loss with
    | ref => cases own
    | component identity => exact ⟨identity, among, of_decide_eq_true own⟩
  · rintro ⟨identity, among, own⟩
    exact ⟨_, among, decide_eq_true own⟩

theorem outlived_fst (losses : List Loss) :
    (outlived losses).map Prod.fst = losses.filterMap ref? := by
  induction losses with
  | nil => rfl
  | cons loss rest ih =>
      cases loss with
      | ref id => exact congrArg (id :: ·) ih
      | component identity => exact ih

theorem mem_outlived {losses : List Loss} {id : RefId} {flag : Bool} :
    (id, flag) ∈ outlived losses ↔ ∃ earlier later, losses = earlier ++ .ref id :: later ∧
      flag = later.any (isOf id.context.session) := by
  induction losses with
  | nil => simp [outlived]
  | cons loss rest ih =>
      cases loss with
      | component identity =>
          rw [outlived, ih]
          constructor
          · rintro ⟨earlier, later, rfl, same⟩
            exact ⟨.component identity :: earlier, later, rfl, same⟩
          · rintro ⟨_ | ⟨first, earlier⟩, later, cut, same⟩
            · cases cut
            · exact ⟨earlier, later, (List.cons.inj cut).2, same⟩
      | ref first =>
          rw [outlived, List.mem_cons, ih]
          constructor
          · rintro (same | ⟨earlier, later, rfl, same⟩)
            · obtain ⟨rfl, same⟩ := Prod.mk.inj same
              exact ⟨[], rest, rfl, same⟩
            · exact ⟨.ref first :: earlier, later, rfl, same⟩
          · rintro ⟨_ | ⟨_, earlier⟩, later, cut, same⟩
            · obtain ⟨here, rfl⟩ := List.cons.inj cut
              obtain rfl := Loss.ref.inj here
              exact .inl (by rw [same])
            · exact .inr ⟨earlier, later, (List.cons.inj cut).2, same⟩

/-- Every ref that is lost has a property, unless the instance that it belongs to is lost later. -/
def Covers (P : RefId → Prop) : List Loss → Prop
  | [] => True
  | .ref id :: later =>
      (P id ∨ ∃ identity, .component identity ∈ later ∧ id.context = identity.context) ∧
        Covers P later
  | .component _ :: later => Covers P later

namespace Covers

variable {P Q : RefId → Prop} {losses more : List Loss}

theorem mono (covers : Covers P losses) (implies : ∀ id, P id → Q id) : Covers Q losses := by
  induction losses with
  | nil => trivial
  | cons loss rest ih =>
      cases loss with
      | ref id => exact ⟨covers.1.imp_left (implies id), ih covers.2⟩
      | component identity => exact ih covers

theorem append (first : Covers P losses) (second : Covers P more) : Covers P (losses ++ more) := by
  induction losses with
  | nil => exact second
  | cons loss rest ih =>
      cases loss with
      | component identity => exact ih first
      | ref id =>
          refine ⟨first.1.imp_right ?_, ih first.2⟩
          rintro ⟨identity, later, own⟩
          exact ⟨identity, List.mem_append_left _ later, own⟩

theorem close {identity : Instance} (inside : Covers (·.context = identity.context) losses) :
    Covers P (losses ++ [.component identity]) := by
  induction losses with
  | nil => trivial
  | cons loss rest ih =>
      cases loss with
      | component other => exact ih inside
      | ref id =>
          refine ⟨.inr ?_, ih inside.2⟩
          rcases inside.1 with own | ⟨other, later, own⟩
          · exact ⟨identity, List.mem_append_right _ (List.mem_singleton_self _), own⟩
          · exact ⟨other, List.mem_append_left _ later, own⟩

theorem outlived (covers : Covers P losses) :
    ∀ entry ∈ Loss.outlived losses, P entry.1 ∨ entry.2 = true := by
  induction losses with
  | nil => simp [Loss.outlived]
  | cons loss rest ih =>
      cases loss with
      | component identity => exact ih covers
      | ref id =>
          intro entry among
          rcases List.mem_cons.mp among with rfl | later
          · refine covers.1.imp_right ?_
            rintro ⟨identity, later, own⟩
            exact any_isOf.mpr ⟨identity, later, by rw [own]; rfl⟩
          · exact ih covers.2 entry later

end Covers

end Loss

namespace Mounted

mutual
/-- What a tree loses when it is taken down, in this order. -/
def losses : Mounted → List Loss
  | .empty => []
  | .text _ => []
  | .element node children => (node.props.ref?.map Loss.ref).toList ++ childLosses children
  | .component identity child => losses child ++ [.component identity]

/-- What several trees lose when they are taken down one after another. -/
def childLosses : List Mounted → List Loss
  | [] => []
  | tree :: rest => losses tree ++ childLosses rest
end

mutual
theorem filter_isLoss_unmount (tree : Mounted) :
    tree.unmount.filter Step.isLoss = tree.losses.map Loss.step := by
  cases tree with
  | empty | text => rfl
  | element node children =>
      have inner := filter_isLoss_unmountAll children
      cases ref : node.props.ref? with
      | none => simpa [unmount, losses, ref] using inner
      | some id =>
          rw [unmount, losses, ref, List.filter_append, List.map_append, inner]
          rfl
  | component identity child =>
      simp [unmount, losses, filter_isLoss_unmount child, Step.isLoss, Loss.step]

/-- Taking trees down takes the steps in which they lose something, in this order. -/
theorem filter_isLoss_unmountAll (trees : List Mounted) :
    (unmountAll trees).filter Step.isLoss = (childLosses trees).map Loss.step := by
  cases trees with
  | nil => rfl
  | cons tree rest =>
      simp [unmountAll, childLosses, filter_isLoss_unmount tree, filter_isLoss_unmountAll rest]
end

mutual
theorem refs_losses (tree : Mounted) :
    tree.losses.filterMap Loss.ref? = tree.refs.map Prod.fst := by
  cases tree with
  | empty | text => rfl
  | element node children =>
      have inner := refs_childLosses children
      cases ref : node.props.ref? <;> simp [losses, refs, ref, inner, Loss.ref?, attachment]
  | component identity child => simp [losses, refs, refs_losses child, Loss.ref?]

theorem refs_childLosses (trees : List Mounted) :
    (childLosses trees).filterMap Loss.ref? = (childRefs trees).map Prod.fst := by
  cases trees with
  | nil => rfl
  | cons tree rest => simp [childLosses, childRefs, refs_losses tree, refs_childLosses rest]
end

mutual
theorem mem_losses_component {identity : Instance} {tree : Mounted} :
    .component identity ∈ tree.losses ↔ identity ∈ tree.instances := by
  cases tree with
  | empty | text => simp [losses, instances]
  | element node children =>
      have inner := @mem_childLosses_component identity children
      cases ref : node.props.ref? <;> simp [losses, instances, ref, inner]
  | component other child =>
      simp [losses, instances, @mem_losses_component identity child, or_comm]

theorem mem_childLosses_component {identity : Instance} {trees : List Mounted} :
    .component identity ∈ childLosses trees ↔ identity ∈ childInstances trees := by
  cases trees with
  | nil => simp [childLosses, childInstances]
  | cons tree rest =>
      simp [childLosses, childInstances, @mem_losses_component identity tree,
        @mem_childLosses_component identity rest]
end

theorem context_below (site : Site) (key : Option UInt32) :
    (site.below key).context = site.context := by
  cases key <;> rfl

mutual
/-- The refs that a tree loses belong to the context of the tree, or to an instance that is lost
    later. -/
theorem covers_losses {site : Site} {tree : Mounted}
    (carried : ∀ entry ∈ tree.elementsAt site, entry.2.Carries entry.1) :
    Loss.Covers (·.context = site.context) tree.losses := by
  cases tree with
  | empty | text => trivial
  | element node children =>
      obtain ⟨here, inside⟩ := List.forall_mem_cons.mp carried
      have inner := covers_childLosses inside
      rw [losses]
      cases given : node.props.ref? with
      | none => exact inner
      | some id => exact ⟨.inl (here.ref id given).1, inner⟩
  | component identity child =>
      have inner : Loss.Covers (·.context = identity.context) child.losses :=
        @covers_losses { site with context := identity.context } child carried
      exact inner.close

theorem covers_childLosses {site : Site} {trees : List Mounted}
    (carried : ∀ entry ∈ childElementsAt site trees, entry.2.Carries entry.1) :
    Loss.Covers (·.context = site.context) (childLosses trees) := by
  cases trees with
  | nil => trivial
  | cons tree rest =>
      obtain ⟨here, there⟩ := List.forall_mem_append.mp carried
      have first := covers_losses here
      rw [context_below] at first
      exact first.append (covers_childLosses there)
end

end Mounted

end RemoteView
