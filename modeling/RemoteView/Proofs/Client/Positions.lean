import RemoteView.Proofs.Client.Inputs
import RemoteView.Proofs.Host.Tagged
import RemoteView.Proofs.Mounted.Following

/-! # Elements at the positions of a spine

In every client that can be reached the handles of the trees have the tags of their elements. Right
after a frame the positions of the body are those of the spine: child indices that lead to an
element of the spine lead to its handle, and no others lead anywhere.
-/

namespace RemoteView

theorem Mounted.labels_mapNodes {change : MountedElement → MountedElement}
    (keeps : KeepsPlace change) (tree : Mounted) : (mapNodes change tree).labels = tree.labels := by
  rw [labels, labels, elements_mapNodes, List.map_map]
  apply List.map_congr_left
  intro node _
  rw [Function.comp_apply, MountedElement.label, keeps.handle, keeps.tag]
  rfl

namespace Client

variable {client after : Client}

/-! ## The tags of handles -/

/-- The handles in the body and in the head, with the tags of their elements. -/
def labels (client : Client) : List Label := Mounted.childLabels client.trees

/-- The handles of the trees have the tags of their elements. -/
def Tagged (client : Client) : Prop := client.host.Tagged client.labels

theorem nodup_labels (handled : Handled client) : (client.labels.map Prod.fst).Nodup := by
  rw [labels, Mounted.childLabels_fst, ← Mounted.childElements_handles]
  exact nodup_handles handled

/-- A call leaves the labels of some elements and makes those of the others. -/
theorem labelled_render (call : RenderCall) (client : Client) :
    Labelled client.labels (client.render call).labels (Deed.steps (client.deeds call))
      (Deed.effects (client.deeds call)) :=
  turns_render Mounted.labels_reckons call client

namespace Tagged

theorem of_kept (tagged : Tagged client)
    (objects : client.host.objects.KeptTagged after.host.objects)
    (labels : after.labels = client.labels) : Tagged after := by
  unfold Tagged
  rw [labels]
  exact Host.Tagged.of_kept tagged objects

theorem render (tagged : Tagged client) (handled : Handled client) (call : RenderCall) :
    Tagged (client.render call) := by
  have ready : (client.prepared call).Tagged client.labels := by
    intro label among
    rw [objects_prepared]
    exact tagged label among
  unfold Tagged
  rw [host_render_eq_commit call client client.host.supply]
  exact ready.commit (labelled_render call client) (nodup_labels (handled.render call))

theorem quiet (tagged : Tagged client) (handled : Handled client) (change : Quiet client after) :
    Tagged after := by
  cases change with
  | aside host body head =>
      refine tagged.of_kept ?_ ?_
      · rw [host]
        exact .refl _
      · rw [labels, labels, trees, trees, body, head]
  | report | locate | openSession | dropSession | setPayload => exact tagged
  | fire id offered event =>
      exact tagged.of_kept (Host.CalledBack.fire id event client.host).objects rfl
  | setGlobal name value =>
      exact tagged.of_kept (Host.CalledBack.setGlobal name value client.host).objects rfl
  | setAttribute handle | sync handle =>
      exact tagged.of_kept (.modifyElement _ handle _ fun _ => rfl) rfl
  | addObject object =>
      refine tagged.of_kept (.put fun old found => ?_) rfl
      have bounded := Host.Handled.bounded handled client.host.objects.next old found
      exact absurd bounded (Nat.lt_irrefl _)
  | changeInputs keeps =>
      refine tagged.of_kept (.refl _) ?_
      simp only [labels, trees, Mounted.collects_labels.cons, Mounted.labels_mapNodes keeps]

theorem move (tagged : Tagged client) (handled : Handled client) {deeds : List Deed}
    (move : Move client deeds after) : Tagged after := by
  cases move with
  | quiet change => exact tagged.quiet handled change
  | render call => exact tagged.render handled call

theorem new (location : String) (policy : ReconnectPolicy) :
    Tagged (Client.new location policy) := by
  intro label among
  cases among

end Tagged

theorem Run.tagged {past : List Deed} {client : Client} (run : Run past client) :
    Tagged client := by
  have both : Handled client ∧ Tagged client :=
    run.invariant (P := fun _ client => Handled client ∧ Tagged client)
      (fun location policy => ⟨Host.Handled.empty, .new location policy⟩)
      fun _ _ _ _ ⟨handled, tagged⟩ move => ⟨handled.move move, tagged.move handled move⟩
  exact both.2

/-! ## Positions -/

theorem Tagged.element? (tagged : Tagged client) {path : Path} {node : MountedElement}
    (here : client.elementAt path = some node) :
    ∃ object, client.host.objects.element? node.handle = some object ∧ object.tag = node.tag := by
  have among : node ∈ client.elements :=
    List.mem_append_left _ (mem_elements_of_elementAt here)
  exact Objects.element?_of_tag? (tagged node.label (List.mem_map_of_mem among))

theorem path_of_handleAt (handled : Handled client) {path other : Path} {handle : ObjectId}
    (here : client.handleAt path = some handle) (there : client.handleAt other = some handle) :
    path = other := by
  obtain ⟨node, found, rfl⟩ := Option.map_eq_some_iff.mp here
  obtain ⟨again, found', same⟩ := Option.map_eq_some_iff.mp there
  obtain ⟨site, among, rfl⟩ := mem_elementsAt_of_elementAt found 0
  obtain ⟨site', among', rfl⟩ := mem_elementsAt_of_elementAt found' 0
  have once : ((client.body.elementsAt (.root 0)).map fun entry => entry.2.handle).Nodup := by
    have handles := nodup_body_handles handled
    rwa [← Mounted.elements_handles, ← Mounted.elementsAt_snd (.root 0), List.map_map] at handles
  have equal := List.inj_on_of_nodup_map once among among' same.symm
  exact congrArg (fun entry => entry.1.path) equal

/-- Right after a frame, child indices that lead to an element of the spine lead to a handle with
    the tag of this element. Where they lead to a text, to an empty node or nowhere at all, no handle
    is found, and none is found at two positions. -/
theorem elements_found_at_paths (reachable : Reachable client) {raw : Json}
    (pending : client.scheduler.pending = some raw) {spine : Spine}
    (decodes : Spine.decode .root raw = .ok spine) (distinct : spine.Distinct)
    (framed : client.frame = (true, after)) (path : Path) :
    (∀ tag children attributes,
      spine.nodeAt? path.segments = some (.element tag children attributes) →
        ∃ handle object, after.handleAt path = some handle ∧
          after.host.objects.element? handle = some object ∧ object.tag = tag) ∧
      ((∀ tag children attributes,
        spine.nodeAt? path.segments ≠ some (.element tag children attributes)) →
          after.handleAt path = none) ∧
      ∀ other handle, after.handleAt path = some handle → after.handleAt other = some handle →
        path = other := by
  obtain ⟨past, run⟩ := reachable
  have next : Run (past ++ client.actionDeeds .frame) after := by
    have performed := run.perform .frame
    rwa [perform, framed] at performed
  obtain ⟨session, shown⟩ := hasRendered_frame run.sound pending decodes framed
  have follows : (after.elementAt path).map MountedElement.tag = spine.tagAt? path.segments :=
    Mounted.shows_follows.tree shown.shows distinct path.segments
  refine ⟨?_, ?_, fun other handle => path_of_handleAt next.handled⟩
  · intro tag children attributes leads
    have tagged : (after.elementAt path).map MountedElement.tag = some tag := by
      rw [follows, Spine.tagAt?, leads]
      rfl
    obtain ⟨node, here, rfl⟩ := Option.map_eq_some_iff.mp tagged
    obtain ⟨object, found, same⟩ := next.tagged.element? here
    exact ⟨node.handle, object, by rw [handleAt, here]; rfl, found, same⟩
  · intro elsewhere
    cases here : after.elementAt path with
    | none => rw [handleAt, here]; rfl
    | some node =>
        rw [here] at follows
        obtain ⟨found, leads, tag⟩ := Option.bind_eq_some_iff.mp follows.symm
        obtain ⟨children, attributes, rfl⟩ := Spine.tag?_eq_some_iff.mp tag
        exact absurd leads (elsewhere _ children attributes)

/-- A list with a text, a component that comes to an entry, and one that comes to a text. -/
def mixedList : Json :=
  .object [("tag", .string "ul"), ("children", .array
    [.array [.ofUInt32 0, .string "first"],
      .array [.ofUInt32 3, .object [("type", .string "Component"), ("id", .ofUInt64 1),
        ("spine", .object [("spine", .object [("tag", .string "li")])])]],
      .array [.ofUInt32 5, .object [("type", .string "Component"), ("id", .ofUInt64 2),
        ("spine", .object [("spine", .string "last")])]]])]

/-- The list as a spine. -/
def mixedSpine : Spine :=
  .element "ul" [(0, .text "first"), (3, .component 1 "" (.element "li" [] []) ⟨[], [], []⟩),
    (5, .component 2 "" (.text "last") ⟨[], [], []⟩)] []

/-- What leads to a client that is about to show the list. -/
def awaitMixedList : List Action := [.openConnection, .message mixedList]

/-- Of the three the entry is found, at the index of its component. -/
theorem entry_found_at_path :
    let after := (history awaitMixedList (.new "/" .never)).2.frame.2
    (∃ handle object, after.handleAt (Path.root.child 3) = some handle ∧
      after.host.objects.element? handle = some object ∧ object.tag = "li") ∧
        after.handleAt (Path.root.child 0) = none ∧ after.handleAt (Path.root.child 5) = none := by
  intro after
  have decodes : Spine.decode .root mixedList = .ok mixedSpine := by cbv
  have distinct : mixedSpine.Distinct := by decide
  have framed : (history awaitMixedList (.new "/" .never)).2.frame.1 = true := by cbv
  have found := elements_found_at_paths ⟨_, run_history "/" .never awaitMixedList⟩ rfl decodes
    distinct (Prod.ext framed rfl)
  refine ⟨(found (Path.root.child 3)).1 "li" [] [] rfl, (found (Path.root.child 0)).2.1 ?_,
    (found (Path.root.child 5)).2.1 ?_⟩
  · intro tag children attributes same
    cases same
  · intro tag children attributes same
    cases same

end Client

end RemoteView
