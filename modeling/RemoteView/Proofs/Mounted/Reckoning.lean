import RemoteView.Proofs.Mounted.Matching
import RemoteView.Proofs.Mounted.Outcome

/-! # Reckoning up

Something is collected from every node of a tree, and siblings are put together. When what a
rendering does to it adds up over siblings, and a change inside of a node is one of the node, then
it is known for all ways of rendering as soon as it is known for mounting and reconciling one tree.
-/

namespace RemoteView.Mounted

variable {α : Type}

/-- What is collected from a tree, and from trees beside each other. -/
structure Collects (collect : Mounted → List α) (collectAll : List Mounted → List α) : Prop where
  nil : collectAll [] = []
  cons : ∀ tree rest, collectAll (tree :: rest) = collect tree ++ collectAll rest

namespace Collects

variable {collect : Mounted → List α} {collectAll : List Mounted → List α}

theorem eq_flatMap (collects : Collects collect collectAll) (trees : List Mounted) :
    collectAll trees = trees.flatMap collect := by
  induction trees with
  | nil => exact collects.nil
  | cons tree rest ih => rw [collects.cons, ih, List.flatMap_cons]

theorem append (collects : Collects collect collectAll) (left right : List Mounted) :
    collectAll (left ++ right) = collectAll left ++ collectAll right := by
  simp only [collects.eq_flatMap, List.flatMap_append]

theorem perm (collects : Collects collect collectAll) {left right : List Mounted}
    (same : left.Perm right) : (collectAll left).Perm (collectAll right) := by
  rw [collects.eq_flatMap, collects.eq_flatMap]
  exact same.flatMap_right collect

end Collects

/-- What steps and effects make of what is collected adds up. The order in which it is collected
    does not matter. -/
structure Reckons (collect : Mounted → List α) (collectAll : List Mounted → List α)
    (Turns : List α → List α → List Step → List Effect → Prop) : Prop where
  collects : Collects collect collectAll
  still : ∀ list, Turns list list [] []
  append : ∀ {before before' after after' steps steps' effects effects'},
    Turns before after steps effects → Turns before' after' steps' effects' →
      Turns (before ++ before') (after ++ after') (steps ++ steps') (effects ++ effects')
  perm : ∀ {before before' after after' steps effects}, Turns before after steps effects →
    before.Perm before' → after.Perm after' → Turns before' after' steps effects
  /-- What is in an element changes. -/
  element : ∀ node {children others steps effects},
    Turns (collectAll children) (collectAll others) steps effects →
      Turns (collect (element node children)) (collect (element node others)) steps effects
  /-- What is in a component changes. -/
  component : ∀ identity {child other steps effects},
    Turns (collect child) (collect other) steps effects →
      Turns (collect (component identity child)) (collect (component identity other)) steps effects
  declare : ∀ site spine, Turns [] [] [.declare site spine] []
  unmountAll : ∀ trees, Turns (collectAll trees) [] (unmountAll trees) []
  mount : ∀ site spine supply, let outcome := mount site spine supply
    Turns [] (collect outcome.value) outcome.steps outcome.effects
  reconcile : ∀ site old spine supply, let outcome := reconcile site old spine supply
    Turns (collect old) (collect outcome.value) outcome.steps outcome.effects

namespace Reckons

variable {collect : Mounted → List α} {collectAll : List Mounted → List α}
  {Turns : List α → List α → List Step → List Effect → Prop}

theorem reconcilesEach (reckons : Reckons collect collectAll Turns) (site : Site) :
    EachInduction site fun pairs _ outcome =>
      Turns (collectAll ((pairs.map Prod.fst).filterMap id)) (collectAll outcome.value)
        outcome.steps outcome.effects where
  nil _ := reckons.still (collectAll [])
  new spine _ supply others := by
    simp only [reckons.collects.cons]
    exact reckons.append (reckons.mount site spine supply) others
  kept old spine _ supply others := by
    simp only [List.map_cons, List.filterMap_cons, id_eq, reckons.collects.cons]
    exact reckons.append (reckons.reconcile site old spine supply) others

theorem reconcileAll (reckons : Reckons collect collectAll Turns) (site : Site)
    (old : List Mounted) (spines : List Spine) (supply : Supply) :
    let outcome := reconcileAll site old spines supply
    Turns (collectAll old) (collectAll outcome.value) outcome.steps outcome.effects := by
  rw [reconcileAll_apply]
  have all := reckons.collects.perm
    (Matching.perm_assign key old (spines.map (Spine.keyAt site.key)))
  rw [reckons.collects.append] at all
  have each := (reckons.reconcilesEach site).each
    ((Matching.assign key old (spines.map (Spine.keyAt site.key))).1.zip spines) supply
  rw [List.map_fst_zip (by simp)] at each
  simpa using reckons.perm (reckons.append each (reckons.unmountAll _)) all (.refl _)

theorem rerenders (reckons : Reckons collect collectAll Turns) (id : InstanceId)
    (content : Spine) :
    RerenderInduction id content
      (fun tree _ outcome =>
        Turns (collect tree) (collect outcome.value) outcome.steps outcome.effects)
      (fun trees _ outcome =>
        Turns (collectAll trees) (collectAll outcome.value) outcome.steps outcome.effects) where
  empty _ := reckons.still _
  text _ _ := reckons.still _
  element node _ _ inner := reckons.element node inner
  here identity child supply _ :=
    reckons.component identity (reckons.append (reckons.declare identity.site content)
      (reckons.reconcile identity.site child content supply))
  inside identity _ _ _ inner := reckons.component identity inner
  nil _ := reckons.still _
  first tree rest _ _ inner := by
    simp only [reckons.collects.cons]
    simpa using reckons.append inner (reckons.still (collectAll rest))
  later tree _ _ _ inner := by
    simp only [reckons.collects.cons]
    exact reckons.append (reckons.still (collect tree)) inner

end Reckons

end RemoteView.Mounted
