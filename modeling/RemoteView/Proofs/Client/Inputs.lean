import Mathlib
import RemoteView.Proofs.Client.Dispatching
import RemoteView.Proofs.Client.Lifecycle
import RemoteView.Proofs.Client.Noting
import RemoteView.Proofs.Client.Readdressing
import RemoteView.Proofs.Client.Updating
import RemoteView.Proofs.Mounted.Pushes

/-! # Controlled inputs stay in step

The value of a controlled input is kept in the input itself and in the properties of its element,
and is pushed and typed over and over. However this happens, the properties show the value of the
input, its change callback stays in place, and a change goes on to the listener that was pushed last
for the element. A rendering changes the values of those inputs that it pushes something for, and a
change event that of the input it is given to.
-/

namespace RemoteView

namespace Assoc

variable {κ α : Type} [DecidableEq κ]

theorem insert_insert_self (key : κ) (value other : α) (entries : Assoc κ α) :
    insert key value (insert key other entries) = insert key value entries := by
  induction entries with
  | nil => simp [insert]
  | cons entry rest ih =>
      by_cases here : entry.1 = key
      · simp [insert, here]
      · simp [insert, here, ih]

theorem insert_comm {first second : κ} (apart : first ≠ second) (value other : α)
    {entries : Assoc κ α} (there : (get? first entries).isSome) :
    insert first value (insert second other entries) =
      insert second other (insert first value entries) := by
  induction entries with
  | nil => cases there
  | cons entry rest ih =>
      by_cases isFirst : entry.1 = first
      · have notSecond : entry.1 ≠ second := isFirst ▸ apart
        simp [insert, isFirst, apart]
      · by_cases isSecond : entry.1 = second
        · simp [insert, isSecond, Ne.symm apart]
        · have later : (get? first rest).isSome := by simpa [get?, isFirst] using there
          simp [insert, isFirst, isSecond, ih later]

end Assoc

namespace ControlledInput

theorem insert_value_render (onChange : Callback) (input : ControlledInput) (text : String)
    (props : Props) :
    Assoc.insert valueProperty (.value (.string text)) (input.render onChange props) =
      ({ input with value := text } : ControlledInput).render onChange props := by
  have there : (Assoc.get? valueProperty (Assoc.insert valueProperty
      (.value (.string input.value)) props)).isSome := by
    rw [Assoc.get?_insert_self]
    rfl
  rw [render, Assoc.insert_comm (by decide) _ _ there, Assoc.insert_insert_self]
  rfl

theorem value?_render (onChange : Callback) (input : ControlledInput) (props : Props) :
    Assoc.get? valueProperty (input.render onChange props) =
      some (.value (.string input.value)) := by
  rw [render, Assoc.get?_insert_of_ne (by decide), Assoc.get?_insert_self]

theorem onChange_render (onChange : Callback) (input : ControlledInput) (props : Props) :
    Assoc.get? changeProperty (input.render onChange props) = some (.listener onChange) := by
  rw [render, Assoc.get?_insert_self]

end ControlledInput

/-- What a controlled input is to the element and to what was pushed for it last: elements that are
    inputs have one, its value and its own change callback are in the properties, and changes go on
    to the listener that was pushed. -/
structure MountedElement.Controlled (push : Push) (node : MountedElement) : Prop where
  adapter : node.input.isSome ↔ node.tag = inputTag
  value : ∀ input, node.input = some input →
    Assoc.get? valueProperty node.props = some (.value (.string input.value))
  onChange : ∀ input, node.input = some input →
    Assoc.get? changeProperty node.props = some (.listener (.input node.handle))
  forwardTo : ∀ input, node.input = some input → input.forwardTo = push.listener?.map .listener

namespace MountedElement

/-- The element with a text as the value of its controlled input, if it has one. -/
def withText (text : String) (node : MountedElement) : MountedElement :=
  Mounted.withInputValue
    { node with input := node.input.map fun input => { input with value := text } }

/-- The element after a text was typed into the input whose element has a handle. -/
def typed (typing : Option (ObjectId × String)) (node : MountedElement) : MountedElement :=
  match typing with
  | some (handle, text) => if node.handle = handle then node.withText text else node
  | none => node

section Typed

variable (node : MountedElement) (text : String) (typing : Option (ObjectId × String))

@[simp] theorem tag_withText : (node.withText text).tag = node.tag := by
  unfold withText Mounted.withInputValue
  split <;> rfl

@[simp] theorem handle_withText : (node.withText text).handle = node.handle := by
  unfold withText Mounted.withInputValue
  split <;> rfl

@[simp] theorem input_withText : (node.withText text).input =
    node.input.map fun input => { input with value := text } := by
  rw [withText, Mounted.input_withInputValue]

@[simp] theorem tag_typed : (node.typed typing).tag = node.tag := by
  unfold typed
  split
  · split <;> simp
  · rfl

@[simp] theorem handle_typed : (node.typed typing).handle = node.handle := by
  unfold typed
  split
  · split <;> simp
  · rfl

variable {node typing}

theorem typed_of_ne (other : ∀ text, typing ≠ some (node.handle, text)) :
    node.typed typing = node := by
  unfold typed
  split
  · rename_i handle text
    have apart : node.handle ≠ handle := by
      rintro rfl
      exact other text rfl
    rw [if_neg apart]
  · rfl

end Typed

namespace InStep

variable {push : Push} {node : MountedElement}

theorem withText (inStep : node.InStep push) (text : String) :
    (node.withText text).InStep push := by
  obtain ⟨key, handle, props, adapter, forwardTo⟩ := inStep
  cases has : node.input with
  | none =>
      have same : node.withText text = node := by
        simp only [MountedElement.withText, has, Option.map_none, Mounted.withInputValue]
        rw [← has]
      rw [same]
      exact ⟨key, handle, props, adapter, forwardTo⟩
  | some input =>
      rw [has, Mounted.propsWith] at props
      have shown : node.withText text =
          { node with
            input := some { input with value := text }
            props := ({ input with value := text } : ControlledInput).render (.input node.handle)
              push.props } := by
        simp only [MountedElement.withText, has, Option.map_some, Mounted.withInputValue, props,
          ControlledInput.insert_value_render]
      rw [shown]
      refine ⟨key, handle, rfl, by simpa [has] using adapter, fun other found => ?_⟩
      obtain rfl := Option.some.inj found
      exact forwardTo input has

theorem props_eq (inStep : node.InStep push) {input : ControlledInput}
    (has : node.input = some input) :
    node.props = input.render (.input node.handle) push.props := by
  rw [inStep.props, has]
  rfl

theorem value?_props (inStep : node.InStep push) {input : ControlledInput}
    (has : node.input = some input) :
    Assoc.get? valueProperty node.props = some (.value (.string input.value)) := by
  rw [inStep.props_eq has]
  exact ControlledInput.value?_render ..

theorem refresh (inStep : node.InStep push) (text : String) :
    let changed : MountedElement :=
      { node with input := node.input.map fun input => { input with value := text } }
    (if Mounted.isStale changed then Mounted.withInputValue changed else changed) =
      node.withText text := by
  intro changed
  cases has : node.input with
  | none => simp [changed, MountedElement.withText, has, Mounted.isStale, Mounted.withInputValue]
  | some input =>
      have shown := inStep.value?_props has
      have stale : Mounted.isStale changed = (Json.string input.value != Json.string text) := by
        simp only [changed, Mounted.isStale, has, Option.map_some, Props.value?, shown,
          Option.bind_some, Property.value?]
      split
      · rfl
      · rename_i fresh
        rw [stale] at fresh
        have same : input.value = text := by
          have equal : (Json.string input.value == Json.string text) = true := by
            simpa [bne] using fresh
          exact of_decide_eq_true equal
        simp only [MountedElement.withText, has, Option.map_some, Mounted.withInputValue, changed]
        rw [Assoc.insert_of_get? (same ▸ shown)]

theorem refresh_self (inStep : node.InStep push) :
    (if Mounted.isStale node then Mounted.withInputValue node else node) = node := by
  cases has : node.input with
  | none => simp [Mounted.isStale, has]
  | some input =>
      have shown := inStep.value?_props has
      have same : Mounted.withInputValue node = node := by
        simp only [Mounted.withInputValue, has, Assoc.insert_of_get? shown]
        rw [← has]
      rw [same, ite_self]

theorem typed (inStep : node.InStep push) (typing : Option (ObjectId × String)) :
    (node.typed typing).InStep push := by
  unfold MountedElement.typed
  split
  · split
    · exact inStep.withText _
    · exact inStep
  · exact inStep

theorem controlled (inStep : node.InStep push) : node.Controlled push where
  adapter := inStep.adapter
  value _ has := inStep.value?_props has
  onChange input has := by
    rw [inStep.props_eq has]
    exact ControlledInput.onChange_render ..
  forwardTo := inStep.forwardTo

theorem listener? (inStep : node.InStep push) (event : String) :
    node.props.listener? (listenerProperty event) =
      if node.tag = inputTag ∧ listenerProperty event = changeProperty then
        some (.input node.handle)
      else (Attribute.listenerWriting? (listenerProperty event) push.attributes).map fun declared =>
        .listener ⟨push.site.context, push.site.path, declared.fid⟩ := by
  rw [← Attribute.listener?_ofAttributes, inStep.props]
  cases has : node.input with
  | none =>
      have other : node.tag ≠ inputTag := by simpa [has] using inStep.adapter
      rw [if_neg fun both => other both.1]
      rfl
  | some input =>
      have isInput : node.tag = inputTag := by simpa [has] using inStep.adapter
      rw [Mounted.propsWith, Props.listener?, ControlledInput.render, Assoc.get?_insert,
        Assoc.get?_insert_of_ne (listenerProperty_ne_value event)]
      by_cases changes : listenerProperty event = changeProperty
      · rw [if_pos changes, if_pos ⟨isInput, changes⟩]
        rfl
      · rw [if_neg changes, if_neg fun both => changes both.2]
        rfl

end InStep

end MountedElement

namespace Mounted

variable {change : MountedElement → MountedElement}

mutual
theorem elements_mapNodes (tree : Mounted) :
    (mapNodes change tree).elements = tree.elements.map change := by
  cases tree with
  | empty | text => rfl
  | element node children =>
      rw [mapNodes, elements, elements, List.map_cons, childElements_mapChildren children]
  | component identity child => exact elements_mapNodes child

theorem childElements_mapChildren (trees : List Mounted) :
    childElements (mapChildren change trees) = (childElements trees).map change := by
  cases trees with
  | nil => rfl
  | cons tree rest =>
      rw [mapChildren, childElements, childElements, List.map_append, elements_mapNodes tree,
        childElements_mapChildren rest]
end

end Mounted

namespace Client

variable {client : Client}

/-- The elements of the body and of the head. -/
def elements (client : Client) : List MountedElement := Mounted.childElements client.trees

/-- The controlled inputs, by the handles of their elements, with their values. -/
def inputs (client : Client) : List (ObjectId × String) :=
  client.elements.filterMap fun node => node.input.map fun input => (node.handle, input.value)

/-- What a call of the renderer pushes for the elements that it renders. -/
def pushes (call : RenderCall) (client : Client) : List Push :=
  match call with
  | .body session spine => Mounted.pushes (.root session) spine (client.render call).body
  | .head session spines => Mounted.pushesAll (.root session) spines (client.render call).head
  | .update id =>
      match client.host.instances.get? id with
      | some state => (Mounted.allWithin id (client.render call).trees).flatMap
          (Mounted.contentPushes state.payload.content)
      | none => []
  | .loading => Mounted.pushes (.root 0) loadingSpine (client.render call).body

/-- The input that something types into, by the handle of its element, and the text. -/
def typing? (action : Action) (client : Client) : Option (ObjectId × String) :=
  match action with
  | .dispatch path event native => do
      let node ← client.elementAt path
      if node.tag = inputTag ∧ listenerProperty event = changeProperty then
        return (node.handle, ControlledInput.typedText client.host.objects native)
      else none
  | .typeText path text => do
      let node ← client.elementAt path
      if node.tag = inputTag then return (node.handle, text) else none
  | _ => none

/-! ## Calls of the renderer -/

/-- An instance that is to be rendered again is in the trees, or there is no component with its
    number and nothing is rendered. -/
theorem update_cases {id : InstanceId} {state : InstanceState} (sound : Sound client)
    (found : client.host.instances.get? id = some state) :
    (state.identity ∈ client.instances ∧ state.identity.id = id) ∨
      (client.render (.update id)).trees = client.trees ∧
        Mounted.allWithin id client.trees = [] := by
  have own : state.identity.id = id := sound.settled.named.id_eq found
  by_cases member : state.identity ∈ client.instances
  · exact .inl ⟨member, own⟩
  · refine .inr ?_
    have absent : id ∉ (Mounted.childInstances client.trees).map Instance.id := by
      intro there
      obtain ⟨identity, inside, same⟩ := List.mem_map.mp there
      exact member (sound.settled.identity_eq found inside same ▸ inside)
    have unheld : ¬ Mounted.anyHolds id client.trees = true := fun held =>
      absent ((Mounted.anyHolds_iff _ _).mp held)
    simp only [trees, Mounted.anyHolds, Bool.or_eq_true, not_or, Bool.not_eq_true] at unheld
    refine ⟨?_, Mounted.allWithin_eq_nil absent⟩
    simp only [render, found, renderInstance, own, unheld.1, unheld.2, Bool.false_eq_true, if_false]
    rfl

theorem head_loading (client : Client) : (client.render .loading).head = [] := by
  simp [render, showLoading, reconcileBody, reconcileHead, Mounted.reconcileAll_apply]

/-- A call of the renderer hands elements what it pushes for them, and leaves the others. -/
theorem renewed_render (sound : Sound client) (call : RenderCall) :
    Mounted.Renewed client.elements (client.render call).elements (client.pushes call) := by
  cases call with
  | body session spine =>
      obtain ⟨before, placed⟩ := sound.body
      have shows := Mounted.shows_reconcile (.root session) placed spine
        (client.host.declareAll (.root session) spine).supply
      have handed : Mounted.Handed (client.pushes (.body session spine))
          (client.render (.body session spine)).body.elements := Mounted.handed_of_shows.tree shows
      exact (Mounted.Renewed.of_handed handed).append_kept (List.subset_append_right ..)
  | head session spines =>
      obtain ⟨before, placed⟩ := sound.head
      have shows := Mounted.shows_reconcileAll (.root session)
        (fun tree member => ⟨_, placed tree member⟩) spines
        (client.prepared (.head session spines)).supply
      have handed : Mounted.Handed (client.pushes (.head session spines))
          (Mounted.childElements (client.render (.head session spines)).head) :=
        Mounted.handed_of_forall₂ shows
      exact ((Mounted.Renewed.of_handed handed).append_kept (List.subset_append_left ..)).of_perm
        List.perm_append_comm
  | update id =>
      cases found : client.host.instances.get? id with
      | none =>
          simp only [pushes, render, found]
          exact ⟨client.elements, [], by simp, List.Subset.refl _, .nil⟩
      | some state =>
          rcases update_cases sound found with ⟨member, rfl⟩ | ⟨same, nowhere⟩
          · obtain ⟨old, -, updated, shows⟩ := updates_renderInstance sound member
            have rendered : client.render (.update state.identity.id) =
                client.renderInstance state := by simp only [render, found]
            have trees := (renderInstance_of_mem member).1
            simp only [pushes, found, rendered, updated, List.flatMap_singleton,
              Mounted.contentPushes]
            have split := Mounted.perm_childElements state.identity.id
              (client.renderInstance state).trees
            rw [updated, trees, (Mounted.rerender_without _ _).rerenderFirst client.trees, ← trees]
              at split
            have outside : Mounted.childElements
                (Mounted.eachWithout state.identity.id client.trees) ⊆ client.elements := fun _ among =>
              (Mounted.perm_childElements state.identity.id client.trees).mem_iff.mpr
                (List.mem_append_left _ among)
            rw [Mounted.childElements, Mounted.childElements, List.append_nil, Mounted.elements]
              at split
            exact ((Mounted.Renewed.of_handed (Mounted.handed_of_shows.tree shows)).append_kept
              outside).of_perm (List.perm_append_comm.trans split.symm)
          · simp only [pushes, found, same, nowhere, elements]
            exact ⟨client.elements, [], by simp [elements], List.Subset.refl _, .nil⟩
  | loading =>
      obtain ⟨before, placed⟩ := sound.body
      have shows := Mounted.shows_reconcile (.root 0) placed loadingSpine
        (client.reconcileHead (.root 0) []).host.supply
      have handed : Mounted.Handed (client.pushes .loading)
          (client.render .loading).body.elements := Mounted.handed_of_shows.tree shows
      have shown : (client.render .loading).elements = (client.render .loading).body.elements := by
        rw [elements, trees, head_loading, Mounted.childElements, Mounted.childElements, List.append_nil]
      rw [shown]
      exact .of_handed handed

/-- Elements that stay keep their tags, and the handle of every other element is new. -/
theorem stays_render (sound : Sound client) (handled : Handled client) (call : RenderCall) :
    ∀ node ∈ (client.render call).elements, client.host.objects.kind? node.handle = none ∨
      ∃ old ∈ client.elements, old.handle = node.handle ∧ old.tag = node.tag := by
  have body : client.body.elements ⊆ client.elements := List.subset_append_left ..
  have head : Mounted.childElements client.head ⊆ client.elements := List.subset_append_right ..
  have known {after : List MountedElement}
      (stay : Mounted.TagsStay client.host.supply.nextObject client.elements after) :
      ∀ node ∈ after, client.host.objects.kind? node.handle = none ∨
        ∃ old ∈ client.elements, old.handle = node.handle ∧ old.tag = node.tag :=
    fun node among => (stay node among).imp_left (Host.Handled.kind?_of_le handled)
  have same : client.host.supply.nextObject ≤ (client.prepared call).supply.nextObject := by
    rw [supply_prepared]
  cases call with
  | body session spine =>
      have stay := Mounted.reconcile_tagsStay.reconcile (.root session) client.body spine
        (client.prepared (.body session spine)).supply
      exact known ((stay.mono same body).append (.of_subset head))
  | head session spines =>
      have stay := Mounted.tagsStay_reconcileAll (.root session) client.head spines
        (client.prepared (.head session spines)).supply
      have kept : Mounted.TagsStay client.host.supply.nextObject client.elements
        client.body.elements := .of_subset body
      exact known (kept.append (stay.mono same head))
  | update id =>
      cases found : client.host.instances.get? id with
      | none =>
          simp only [render, found]
          exact known (.of_subset (List.Subset.refl _))
      | some state =>
          rcases update_cases sound found with ⟨member, rfl⟩ | ⟨unchanged, -⟩
          · have stay := (Mounted.rerender_tagsStay state.identity.id
              state.payload.content).rerenderFirst client.trees client.host.supply
            rw [← (renderInstance_of_mem member).1] at stay
            simp only [render, found]
            exact known stay
          · rw [elements, unchanged]
            exact known (.of_subset (List.Subset.refl _))
  | loading =>
      let emptied := client.reconcileHead (.root 0) []
      intro node among
      rw [elements, trees, head_loading, Mounted.childElements, Mounted.childElements,
        List.append_nil] at among
      have stay := Mounted.reconcile_tagsStay.reconcile (.root 0) client.body loadingSpine
        emptied.host.supply node among
      rcases stay with new | ⟨old, was, same⟩
      · -- The handle is new after the head was emptied, so it was no object before.
        have missing := Host.Handled.kind?_of_le (handled.reconcileHead 0 []) new
        refine .inl (Option.eq_none_iff_forall_not_mem.mpr fun kind there => ?_)
        rw [(handled.kept_reconcileHead 0 []).kinds _ _ there] at missing
        cases missing
      · exact .inr ⟨old, body was, same⟩

/-! ## Events on elements -/

theorem mem_elements_of_elementAt {path : Path} {node : MountedElement}
    (here : client.elementAt path = some node) : node ∈ client.body.elements := by
  obtain ⟨site, among, -⟩ := mem_elementsAt_of_elementAt here 0
  rw [← Mounted.elementsAt_snd (.root 0)]
  exact List.mem_map.mpr ⟨_, among, rfl⟩

theorem elements_refreshInputs (client : Client) :
    client.refreshInputs.elements =
      (client.body.elements.map fun node =>
        if Mounted.isStale node then Mounted.withInputValue node else node) ++
          Mounted.childElements client.head := by
  have body : client.refreshInputs.body = client.body.refresh := rfl
  rw [elements, trees, Mounted.childElements, body, Mounted.refresh_eq, Mounted.elements_mapNodes]
  rfl

theorem trees_call_input (handle : ObjectId) (node : MountedElement) (event : Value)
    (client : Client) :
    (client.call (.input handle) node event).body =
        client.body.modifyInput handle (·.change client.host.objects event) ∧
      (client.call (.input handle) node event).head = client.head := by
  simp only [call]
  split <;> exact ⟨rfl, rfl⟩

/-- Every element is in step with something that was pushed for it, and has a handle of its own. -/
structure InStep (client : Client) : Prop where
  once : (client.elements.map MountedElement.handle).Nodup
  elements : ∀ node ∈ client.elements, ∃ push, node.InStep push

namespace InStep

theorem elements_refreshInputs (inStep : InStep client) :
    client.refreshInputs.elements = client.elements := by
  have same : client.body.elements.map (fun node =>
      if Mounted.isStale node then Mounted.withInputValue node else node) =
        client.body.elements := by
    refine (List.map_congr_left fun node among => ?_).trans (List.map_id _)
    obtain ⟨push, step⟩ := inStep.elements node (List.mem_append_left _ among)
    exact step.refresh_self
  rw [Client.elements_refreshInputs, same]
  rfl

/-- After a change event the input that it is given to has the text of the event, and all other
    elements are as they were. -/
theorem elements_call_input (inStep : InStep client) {node : MountedElement}
    (there : node ∈ client.body.elements) (other : MountedElement) (event : Value) :
    (client.call (.input node.handle) other event).refreshInputs.elements =
      client.elements.map (·.typed
        (some (node.handle, ControlledInput.typedText client.host.objects event))) := by
  obtain ⟨body, head⟩ := trees_call_input node.handle other event client
  have split : client.elements = client.body.elements ++ Mounted.childElements client.head := rfl
  have once := inStep.once
  rw [split, List.map_append] at once
  have inHead : (Mounted.childElements client.head).map (·.typed
      (some (node.handle, ControlledInput.typedText client.host.objects event))) =
        Mounted.childElements client.head := by
    refine (List.map_congr_left fun fragment among => ?_).trans (List.map_id _)
    have apart : fragment.handle ≠ node.handle := fun same =>
      List.disjoint_of_nodup_append once (List.mem_map_of_mem there)
        (same ▸ List.mem_map_of_mem among)
    rw [MountedElement.typed, if_neg apart]
    rfl
  rw [Client.elements_refreshInputs, body, head, Mounted.modifyInput_eq, Mounted.elements_mapNodes,
    List.map_map, split, List.map_append, inHead]
  refine congrArg (· ++ _) (List.map_congr_left fun one among => ?_)
  obtain ⟨push, step⟩ := inStep.elements one (List.mem_append_left _ among)
  rw [Function.comp_apply, MountedElement.typed]
  by_cases own : one.handle = node.handle
  · rw [if_pos own, if_pos own]
    exact step.refresh _
  · rw [if_neg own, if_neg own]
    exact step.refresh_self

theorem elements_dispatch (inStep : InStep client) (path : Path) (event : String)
    (native : Value) : (client.dispatch path event native).2.elements =
      client.elements.map (·.typed (client.typing? (.dispatch path event native))) := by
  have same : client.elements.map (·.typed none) = client.elements := List.map_id _
  cases here : client.elementAt path with
  | none => simp only [dispatch, typing?, here, Option.bind_eq_bind, Option.bind_none, same]
  | some node =>
      have there := mem_elements_of_elementAt here
      obtain ⟨push, step⟩ := inStep.elements node (List.mem_append_left _ there)
      have offered := step.listener? event
      by_cases changes : node.tag = inputTag ∧ listenerProperty event = changeProperty
      · rw [if_pos changes] at offered
        simp only [dispatch, typing?, here, offered, Option.bind_eq_bind, Option.bind_some,
          if_pos changes]
        exact inStep.elements_call_input there node native
      · rw [if_neg changes] at offered
        simp only [dispatch, typing?, here, Option.bind_eq_bind, Option.bind_some, if_neg changes,
          same, offered]
        cases Attribute.listenerWriting? (listenerProperty event) push.attributes with
        | none => rfl
        | some declared =>
            have fired : InStep (client.modifyHost (·.fire ⟨push.site.context, push.site.path,
              declared.fid⟩ native)) := ⟨inStep.once, inStep.elements⟩
            exact fired.elements_refreshInputs

end InStep

theorem exists_element_of_kind {objects : Objects} {handle : ObjectId}
    (known : objects.kind? handle = some .element) :
    ∃ object, objects.element? handle = some object := by
  obtain ⟨object, stored, isElement⟩ := Option.map_eq_some_iff.mp known
  cases object with
  | element object => exact ⟨object, by rw [Objects.element?, stored]⟩
  | event | window => cases isElement

theorem typedText_typed {objects : Objects} {handle : ObjectId} {object : ElementObject}
    (found : objects.element? handle = some object) (bounded : objects.IsBounded) (text : String) :
    let written := objects.modifyElement handle (·.setAttribute valueProperty (.string text))
    let added := written.add (.event ⟨"change", some handle, [], []⟩)
    ControlledInput.typedText added.2 (.host added.1) = text := by
  intro written added
  have stored : objects.get? handle = some (.element object) := by
    unfold Objects.element? at found
    split at found
    · rename_i isElement
      rw [isElement, Option.some.inj found]
    · cases found
  have put : written = objects.put handle (.element (object.setAttribute valueProperty
      (.string text))) := by
    simp only [written, Objects.modifyElement, found]
  have older : handle ≠ written.next := by
    have within := bounded handle _ stored
    rw [put]
    exact Nat.ne_of_lt (Nat.lt_of_lt_of_le within (Nat.le_max_left _ _))
  have target : (Value.host added.1).member added.2 "target" = .host handle := by
    simp only [Value.member, added, Numbered.add, Numbered.get?_put, if_true]
    rfl
  have value : (Value.host handle).member added.2 "value" = .json (.string text) := by
    simp only [Value.member, added, Numbered.add, Numbered.get?_put, if_neg older]
    rw [put, Numbered.get?_put, if_pos rfl]
    simp only [HostObject.member, ElementObject.setAttribute, show ("value" : String) ≠ "tagName" by
      decide, if_false]
    rw [show ("value" : String) = valueProperty from rfl, Assoc.get?_insert_self]
    rfl
  rw [ControlledInput.typedText, target, value]
  rfl

theorem InStep.elements_typeText (inStep : InStep client) (handled : Handled client) (path : Path)
    (text : String) : (client.typeText path text).2.elements =
      client.elements.map (·.typed (client.typing? (.typeText path text))) := by
  have same : client.elements.map (·.typed none) = client.elements := List.map_id _
  cases here : client.elementAt path with
  | none =>
      simp only [typeText, handleAt, typing?, here, Option.map_none, Option.bind_eq_bind,
        Option.bind_none, same]
  | some node =>
      let objects := client.host.objects.modifyElement node.handle
        (·.setAttribute valueProperty (.string text))
      let added := objects.add (.event ⟨"change", some node.handle, [], []⟩)
      let ready := client.modifyHost fun host => { host with objects := added.2 }
      have dispatched : (client.typeText path text).2 =
          (ready.dispatch path "change" (.host added.1)).2 := by
        simp only [typeText, setAttribute, handleAt, here, Option.map_some]
        rfl
      have readyInStep : InStep ready := ⟨inStep.once, inStep.elements⟩
      have readyHere : ready.elementAt path = some node := here
      have known : client.host.objects.kind? node.handle = some .element :=
        kind?_of_mem_handles handled (by
          rw [← Mounted.elements_handles]
          exact List.mem_map_of_mem (mem_elements_of_elementAt here))
      obtain ⟨object, found⟩ := exists_element_of_kind known
      have typing : ready.typing? (.dispatch path "change" (.host added.1)) =
          client.typing? (.typeText path text) := by
        have changes : listenerProperty "change" = changeProperty := by decide
        simp only [typing?, here, readyHere, Option.bind_eq_bind, Option.bind_some, changes, and_true]
        rw [show ready.host.objects = added.2 from rfl, typedText_typed found handled.bounded]
      rw [dispatched, readyInStep.elements_dispatch, typing]
      rfl

theorem InStep.elements_of_no_call (inStep : InStep client) (handled : Handled client)
    {action : Action} (called : client.call? action = none) :
    (client.perform action).elements = client.elements.map (·.typed (client.typing? action)) := by
  have aside {after : Client} (body : after.body = client.body) (head : after.head = client.head) :
      after.elements = client.elements.map (·.typed none) := by
    rw [Client.elements, trees, body, head]
    exact (List.map_id _).symm
  cases action with
  | dispatch path event native => exact inStep.elements_dispatch path event native
  | typeText path text => exact inStep.elements_typeText handled path text
  | openConnection =>
      simp only [perform, openConnection]
      split <;> exact aside rfl rfl
  | message raw =>
      simp only [perform, handleMessage]
      split
      · exact aside rfl rfl
      · unfold pushLocation
        split <;> exact aside rfl rfl
      · exact aside rfl rfl
  | frame =>
      simp only [call?, Scheduler.take, Option.bind_eq_bind] at called
      simp only [perform, frame, Scheduler.take]
      split
      · rename_i raw session waits live
        split
        · rename_i spine reads
          simp [waits, live, reads, Except.toOption] at called
        · exact aside rfl rfl
      · exact aside rfl rfl
  | renderAt key raw =>
      simp only [call?, Option.bind_eq_bind] at called
      simp only [perform, renderAt]
      split
      · exact aside rfl rfl
      · rename_i session live
        split
        · exact aside rfl rfl
        · rename_i state found
          split
          · exact aside rfl rfl
          · rename_i payload reads
            simp [live, found, reads, Except.toOption] at called
  | renderFragments fragments =>
      simp only [call?, Option.bind_eq_bind] at called
      simp only [perform, renderFragments]
      split
      · exact aside rfl rfl
      · rename_i session live
        split
        · exact aside rfl rfl
        · rename_i spines reads
          simp [live, reads, Except.toOption] at called
  | close | fail => cases called
  | takeFrameRequest | navigate | dispatchWindow | setGlobal | addObject => exact aside rfl rfl
  | popState =>
      simp only [perform, popState]
      split <;> exact aside rfl rfl
  | setAttribute path name value =>
      simp only [perform, setAttribute]
      split <;> exact aside rfl rfl

/-! ## Everything that happens -/

/-- Every element is in step with what was pushed for it last, and what was pushed was pushed for
    elements. -/
structure FollowsPushes (pushed : List Push) (client : Client) : Prop where
  known : ∀ push ∈ pushed, client.host.objects.kind? push.handle = some .element
  last : ∀ node ∈ client.elements, ∃ push,
    Push.last? node.handle pushed = some push ∧ node.InStep push

theorem nodup_handles (handled : Handled client) :
    (client.elements.map MountedElement.handle).Nodup := by
  have once := Host.Handled.once handled
  rwa [holdings, List.map_append, Mounted.holdings_fst, Mounted.childHoldings_fst,
    ← Mounted.elements_handles, ← Mounted.childElements_handles, ← List.map_append] at once

theorem kind?_of_mem_elements (handled : Handled client) {node : MountedElement}
    (among : node ∈ client.elements) :
    client.host.objects.kind? node.handle = some .element := by
  have held : node.handle ∈ client.holdings.map Prod.fst := by
    rw [holdings, List.map_append, Mounted.holdings_fst, Mounted.childHoldings_fst,
      ← Mounted.elements_handles, ← Mounted.childElements_handles, ← List.map_append]
    exact List.mem_map_of_mem among
  obtain ⟨holding, member, same⟩ := List.mem_map.mp held
  exact same ▸ Host.Handled.elements handled holding member

theorem Run.kept_perform {past : List Deed} (run : Run past client) (action : Action) :
    client.host.objects.Kept (client.perform action).host.objects := by
  have happens := happens_perform run.sound.settled.named action
  generalize client.call? action = called at happens
  cases happens with
  | quietly changes => exact run.handled.kept_quietly changes
  | render before live afterwards =>
      have ready := before.preserves (fun _ _ => Handled.quiet) run.handled
      exact ((run.handled.kept_quietly before).trans (ready.kept_render _)).trans
        ((ready.render _).kept_quietly afterwards)

namespace FollowsPushes

variable {pushed : List Push}

theorem inStep (follows : FollowsPushes pushed client) (handled : Handled client) :
    InStep client where
  once := nodup_handles handled
  elements node among := by
    obtain ⟨push, -, step⟩ := follows.last node among
    exact ⟨push, step⟩

/-- Whatever happens either is without a call of the renderer, and an input may be typed into, or
    hands elements what is pushed for them. -/
theorem becomes {past : List Deed} (run : Run past client) (follows : FollowsPushes pushed client)
    (action : Action) :
    (client.notes pushes action = [] ∧
      (client.perform action).elements = client.elements.map (·.typed (client.typing? action))) ∨
    client.typing? action = none ∧
      Mounted.Renewed client.elements (client.perform action).elements
        (client.notes pushes action) ∧
      ∀ node ∈ (client.perform action).elements,
        client.host.objects.kind? node.handle = none ∨
          ∃ old ∈ client.elements, old.handle = node.handle ∧ old.tag = node.tag := by
  unfold notes
  cases called : client.call? action with
  | none =>
      exact .inl ⟨rfl, (follows.inStep run.handled).elements_of_no_call run.handled called⟩
  | some found =>
      obtain ⟨ready, call⟩ := found
      have made := callMade_of_call? run.sound.settled.named called
      obtain ⟨log, done⟩ := made.done
      have sound := made.before.preserves (fun _ _ => Sound.quiet) run.sound
      have renewed := renewed_render sound call
      have stays := stays_render sound
        (made.before.preserves (fun _ _ => Handled.quiet) run.handled) call
      have readyElements : ready.elements = client.elements := by
        rw [Client.elements, trees, made.body, made.head]
        rfl
      have after : (client.perform action).elements = (ready.render call).elements := by
        rw [done]
        rfl
      rw [readyElements, ← after, made.objects] at stays
      rw [readyElements, ← after] at renewed
      refine .inr ⟨?_, renewed, stays⟩
      cases action <;> first | rfl | cases called

theorem perform {past : List Deed} (run : Run past client) (follows : FollowsPushes pushed client)
    (action : Action) :
    FollowsPushes (pushed ++ client.notes pushes action) (client.perform action) := by
  have handledAfter := (run.perform action).handled
  have kept := run.kept_perform action
  rcases follows.becomes run action with ⟨nothing, elements⟩ | ⟨-, renewed, -⟩
  · rw [nothing, List.append_nil]
    refine ⟨fun push among => kept.kinds _ _ (follows.known push among), fun node among => ?_⟩
    rw [elements] at among
    obtain ⟨old, was, rfl⟩ := List.mem_map.mp among
    obtain ⟨push, last, step⟩ := follows.last old was
    have typed := step.typed (client.typing? action)
    have same : (old.typed (client.typing? action)).handle = old.handle :=
      typed.handle.trans step.handle.symm
    exact ⟨push, same ▸ last, typed⟩
  · refine ⟨fun push among => ?_, fun node among => ?_⟩
    · rcases List.mem_append.mp among with before | now
      · exact kept.kinds _ _ (follows.known push before)
      · obtain ⟨node, member, same⟩ := renewed.exists_of_push now
        exact same ▸ kind?_of_mem_elements handledAfter member
    · rw [Push.last?_append]
      rcases renewed.cases (nodup_handles handledAfter) among with
        ⟨push, last, shown⟩ | ⟨nothing, was⟩
      · rw [last, Option.some_or]
        refine ⟨push, rfl, ?_⟩
        rw [shown]
        exact push.inStep_rendered node.tag
      · rw [nothing, Option.none_or]
        exact follows.last node was

end FollowsPushes

theorem RunNoting.followsPushes {pushed : List Push} (run : RunNoting pushes pushed client) :
    FollowsPushes pushed client := by
  induction run with
  | new location policy => exact ⟨nofun, nofun⟩
  | perform run action ih =>
      obtain ⟨past, reached⟩ := run.reachable
      exact ih.perform reached action

/-- What becomes of the inputs when something happens, given what has been pushed before. -/
structure KeepsInputs (pushed : List Push) (client : Client) (action : Action) : Prop where
  /-- An element stays what it is with its input, or is new and so is its input. -/
  stays : ∀ node ∈ (client.perform action).elements,
    (∃ old ∈ client.elements, old.handle = node.handle ∧ old.tag = node.tag) ∨
      ∀ push ∈ pushed, push.handle ≠ node.handle
  /-- An input takes over the value that is pushed for it. -/
  handed : ∀ node ∈ (client.perform action).elements, ∀ push,
    Push.last? node.handle (client.notes pushes action) = some push →
      ∀ input, node.input = some input → input.value = push.text
  /-- Elements that nothing is pushed for and that are not typed into stay as they are. -/
  left : ∀ node ∈ (client.perform action).elements,
    Push.last? node.handle (client.notes pushes action) = none →
      (∀ text, client.typing? action ≠ some (node.handle, text)) → node ∈ client.elements

/-- An input takes over a text, and the values of all others are what they were. -/
structure TypesInto (client after : Client) (handle : ObjectId) (text : String) : Prop where
  taken : (handle, text) ∈ after.inputs
  others : after.inputs =
    client.inputs.map fun entry => if entry.1 = handle then (handle, text) else entry

theorem FollowsPushes.keepsInputs {pushed : List Push} {past : List Deed} (run : Run past client)
    (follows : FollowsPushes pushed client) (action : Action) :
    KeepsInputs pushed client action := by
  have once := nodup_handles (run.perform action).handled
  rcases follows.becomes run action with ⟨nothing, elements⟩ | ⟨untyped, renewed, stays⟩
  · refine ⟨fun node among => .inl ?_, fun node among push last => ?_, fun node among _ other => ?_⟩
    · rw [elements] at among
      obtain ⟨old, there, rfl⟩ := List.mem_map.mp among
      exact ⟨old, there, (old.handle_typed _).symm, (old.tag_typed _).symm⟩
    · rw [nothing] at last
      cases last
    · rw [elements] at among
      obtain ⟨old, there, rfl⟩ := List.mem_map.mp among
      rw [MountedElement.handle_typed] at other
      rwa [MountedElement.typed_of_ne other]
  · refine ⟨fun node among => ?_, fun node among push last input has => ?_,
      fun node among nothing _ => ?_⟩
    · refine (stays node among).symm.imp_right fun new push pushedBefore same => ?_
      rw [← same, follows.known push pushedBefore] at new
      cases new
    · rcases renewed.cases once among with ⟨other, isLast, shown⟩ | ⟨nothing, -⟩
      · obtain rfl := Option.some.inj (last.symm.trans isLast)
        rw [shown] at has
        exact Push.value_rendered has
      · rw [last] at nothing
        cases nothing
    · rcases renewed.cases once among with ⟨push, last, -⟩ | ⟨-, old⟩
      · rw [nothing] at last
        cases last
      · exact old

theorem typesInto_of_elements {after : Client} {node : MountedElement} {text : String}
    (there : node ∈ client.elements) (isInput : node.input.isSome)
    (typed : after.elements = client.elements.map (·.typed (some (node.handle, text)))) :
    TypesInto client after node.handle text := by
  have others : after.inputs =
      client.inputs.map fun entry => if entry.1 = node.handle then (node.handle, text) else entry := by
    rw [inputs, typed, List.filterMap_map, inputs, List.map_filterMap]
    refine List.filterMap_congr fun one _ => ?_
    rw [Function.comp_apply, MountedElement.handle_typed, MountedElement.typed, Option.map_map]
    by_cases own : one.handle = node.handle
    · cases has : one.input <;> simp [own, has]
    · cases has : one.input <;> simp [own, has]
  refine ⟨?_, others⟩
  obtain ⟨input, has⟩ := Option.isSome_iff_exists.mp isInput
  rw [others]
  refine List.mem_map.mpr ⟨(node.handle, input.value), ?_, by simp⟩
  exact List.mem_filterMap.mpr ⟨node, there, by rw [has]; rfl⟩

/-- What an event that changes an input comes to: the input takes over the text of the event, and
    what is sent is what the listener sends that was pushed last. -/
theorem FollowsPushes.dispatch_change {pushed : List Push} (follows : FollowsPushes pushed client)
    (handled : Handled client) {path : Path} {node : MountedElement}
    (here : client.elementAt path = some node) (isInput : node.tag = inputTag) {event : String}
    (changes : listenerProperty event = changeProperty) (native : Value) :
    (client.dispatch path event native).1 = true ∧
      TypesInto client (client.dispatch path event native).2 node.handle
        (ControlledInput.typedText client.host.objects native) ∧
      (client.dispatch path event native).2.host.sent =
        match (Push.last? node.handle pushed).bind Push.listener? with
        | some id => (client.host.fire id native).sent
        | none => client.host.sent := by
  have there : node ∈ client.elements :=
    List.mem_append_left _ (mem_elements_of_elementAt here)
  obtain ⟨push, last, step⟩ := follows.last node there
  obtain ⟨input, has⟩ := Option.isSome_iff_exists.mp (step.adapter.mpr isInput)
  have offered := step.listener? event
  rw [if_pos ⟨isInput, changes⟩] at offered
  have dispatched : client.dispatch path event native =
      (true, (client.call (.input node.handle) node native).refreshInputs) := by
    simp only [dispatch, here, offered]
  have typing : client.typing? (.dispatch path event native) =
      some (node.handle, ControlledInput.typedText client.host.objects native) := by
    simp only [typing?, here, Option.bind_eq_bind, Option.bind_some, isInput, changes, and_self,
      if_true]
    rfl
  have typed := (follows.inStep handled).elements_dispatch path event native
  rw [typing] at typed
  refine ⟨by rw [dispatched], typesInto_of_elements there (step.adapter.mpr isInput) typed, ?_⟩
  have forwarded : node.input.bind ControlledInput.forwardTo = push.listener?.map .listener := by
    rw [has]
    exact step.forwardTo input has
  rw [dispatched, sent_refreshInputs, last, Option.bind_some]
  simp only [call, forwarded]
  cases push.listener? <;> rfl

theorem FollowsPushes.typeText_input {pushed : List Push} (follows : FollowsPushes pushed client)
    (handled : Handled client) {path : Path} {node : MountedElement}
    (here : client.elementAt path = some node) (isInput : node.tag = inputTag) (text : String) :
    TypesInto client (client.typeText path text).2 node.handle text := by
  have there : node ∈ client.elements :=
    List.mem_append_left _ (mem_elements_of_elementAt here)
  obtain ⟨push, -, step⟩ := follows.last node there
  have typing : client.typing? (.typeText path text) = some (node.handle, text) := by
    simp only [typing?, here, Option.bind_eq_bind, Option.bind_some, isInput, if_true]
    rfl
  have typed := (follows.inStep handled).elements_typeText handled path text
  rw [typing] at typed
  exact typesInto_of_elements there (step.adapter.mpr isInput) typed

/-- In every client that can be reached, controlled inputs are in step with the elements and with
    what was pushed for these last, and whatever happens next keeps them: an input lives as long as
    its element, takes over what is pushed for it and what a change event or the user types into it,
    and is left alone otherwise. -/
theorem inputs_stay_in_step {pushed : List Push} (run : RunNoting pushes pushed client) :
    (client.elements.map MountedElement.handle).Nodup ∧
    (∀ node ∈ client.elements, ∃ push,
      Push.last? node.handle pushed = some push ∧ node.Controlled push) ∧
    (∀ action, KeepsInputs pushed client action) ∧
    ∀ path node, client.elementAt path = some node → node.tag = inputTag →
      (∀ event native, listenerProperty event = changeProperty →
        (client.dispatch path event native).1 = true ∧
        TypesInto client (client.dispatch path event native).2 node.handle
          (ControlledInput.typedText client.host.objects native) ∧
        (client.dispatch path event native).2.host.sent =
          match (Push.last? node.handle pushed).bind Push.listener? with
          | some id => (client.host.fire id native).sent
          | none => client.host.sent) ∧
      ∀ text, TypesInto client (client.typeText path text).2 node.handle text := by
  obtain ⟨past, reached⟩ := run.reachable
  have follows := run.followsPushes
  refine ⟨nodup_handles reached.handled, fun node among => ?_,
    fun action => follows.keepsInputs reached action, fun path node here isInput => ⟨?_, ?_⟩⟩
  · obtain ⟨push, last, step⟩ := follows.last node among
    exact ⟨push, last, step.controlled⟩
  · exact fun event native changes =>
      follows.dispatch_change reached.handled here isInput changes native
  · exact follows.typeText_input reached.handled here isInput

/-- What leads to a client that shows a form, in whose input a text has been typed. -/
def typeIntoForm : List Action :=
  [.openConnection, .message formWithInput.encode, .frame, .typeText ⟨[4]⟩ "typed"]

/-- The input of the form has the text that was typed, and when another text is typed it has that
    one. -/
theorem typed_form_input_in_step :
    let client := (new "/" .never).performAll typeIntoForm
    let pushed := notesAlong pushes typeIntoForm (new "/" .never)
    RunNoting pushes pushed client ∧ client.inputs.map Prod.snd = ["typed"] ∧
      (∀ node ∈ client.elements, ∃ push,
        Push.last? node.handle pushed = some push ∧ node.Controlled push) ∧
      KeepsInputs pushed client (.message formWithInput.encode) ∧
      ∃ node, client.elementAt ⟨[4]⟩ = some node ∧ node.tag = inputTag ∧
        TypesInto client (client.typeText ⟨[4]⟩ "again").2 node.handle "again" := by
  intro client pushed
  have run : RunNoting pushes pushed client := (RunNoting.new "/" .never).along typeIntoForm
  obtain ⟨-, controlled, keeps, events⟩ := inputs_stay_in_step run
  have typed : client.inputs.map Prod.snd = ["typed"] := by
    unfold client
    cbv
  have isInput : (client.elementAt ⟨[4]⟩).map MountedElement.tag = some inputTag := by
    unfold client
    cbv
  obtain ⟨node, here, tag⟩ := Option.map_eq_some_iff.mp isInput
  exact ⟨run, typed, controlled, keeps _, node, here, tag, (events ⟨[4]⟩ node here tag).2 "again"⟩

end Client

end RemoteView
