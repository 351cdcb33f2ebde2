import RemoteView.Proofs.Host.Handled
import RemoteView.Proofs.Mounted.Labels

/-! # Handles with the tags of their elements

The handle of an element is created with the tag of the element, and it keeps the tag for good. As
the elements of the trees have distinct handles, no handle is created over another.
-/

namespace RemoteView.Host

/-- The handles have the tags of their elements. -/
def Tagged (host : Host) (labels : List Label) : Prop :=
  ∀ label ∈ labels, host.objects.tag? label.1 = some label.2

theorem Tagged.of_kept {host after : Host} {labels : List Label} (tagged : host.Tagged labels)
    (kept : host.objects.KeptTagged after.objects) : after.Tagged labels := by
  intro label among
  exact kept.tags _ _ (tagged label among)

/-- What steps do to tags: handles that are not created keep theirs, and those that are created have
    the tags that they were created with. -/
structure TagsAfter (before after : Host) (steps : List Step) : Prop where
  kept : ∀ handle tag, before.objects.tag? handle = some tag →
    handle ∉ (labelsOf steps).map Prod.fst → after.objects.tag? handle = some tag
  created : after.Tagged (labelsOf steps)

theorem tagsAfter_steps {steps : List Step} (once : ((labelsOf steps).map Prod.fst).Nodup)
    (host : Host) : TagsAfter host (steps.foldl runStep host) steps := by
  induction steps generalizing host with
  | nil =>
      refine ⟨fun handle tag there _ => there, ?_⟩
      intro label among
      cases among
  | cons step rest ih =>
      rw [List.foldl_cons]
      cases made : step.created? with
      | none =>
          have same : labelsOf (step :: rest) = labelsOf rest :=
            List.filterMap_cons_none (Step.label?_eq_none made)
          rw [same] at once
          have later := ih once (host.runStep step)
          refine ⟨?_, ?_⟩
          · intro handle tag there outside
            rw [same] at outside
            exact later.kept handle tag ((Stays.runStep host made).objects.tags _ _ there) outside
          · rw [same]
            exact later.created
      | some handle =>
          cases step with
          | createHandle own tag props =>
              have both : labelsOf (.createHandle own tag props :: rest) =
                  (own, tag) :: labelsOf rest := rfl
              rw [both, List.map_cons, List.nodup_cons] at once
              obtain ⟨new, once⟩ := once
              have later := ih once (host.runStep (.createHandle own tag props))
              have written (other : ObjectId) :
                  (host.runStep (.createHandle own tag props)).objects.tag? other =
                    if other = own then some tag else host.objects.tag? other :=
                Objects.tag?_put host.objects own other _
              refine ⟨?_, ?_⟩
              · intro other known there outside
                rw [both, List.map_cons, List.mem_cons, not_or] at outside
                apply later.kept other known _ outside.2
                rw [written, if_neg outside.1, there]
              · intro label among
                rw [both, List.mem_cons] at among
                obtain rfl | among := among
                · apply later.kept own tag _ new
                  rw [written, if_pos rfl]
                · exact later.created label among
          | syncHandle | detachRef | willUnmount | release | instantiate | receive | declare =>
              cases made

theorem Tagged.commit {α : Type} {outcome : Outcome α} {host : Host} {before after : List Label}
    (tagged : host.Tagged before)
    (labelled : Labelled before after outcome.steps outcome.effects)
    (once : (after.map Prod.fst).Nodup) : (host.commit outcome).Tagged after := by
  obtain ⟨kept, were, perm⟩ := labelled
  have apart := (perm.map Prod.fst).nodup_iff.mp once
  rw [List.map_append, List.nodup_append] at apart
  obtain ⟨-, created, disjoint⟩ := apart
  have tags := tagsAfter_steps created host
  have stepped : (outcome.steps.foldl runStep host).Tagged after := by
    intro label among
    obtain old | new := List.mem_append.mp (perm.mem_iff.mp among)
    · apply tags.kept _ _ (tagged label (were old))
      intro again
      exact disjoint _ (List.mem_map_of_mem old) _ again rfl
    · exact tags.created label new
  exact stepped.of_kept (effected outcome.effects _).objects

end RemoteView.Host
