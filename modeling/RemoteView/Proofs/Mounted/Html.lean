import RemoteView.Client.Connection
import RemoteView.Proofs.Mounted.Outcome

/-! # What a spine looks like

The text of a tree that shows a spine is a function of the spine. Callbacks are not written, so
neither the context nor the handles matter; and reconciling writes the same text as mounting, so
nothing of the tree that was there before matters either. The main statement says this of whole
frames, whatever the client has gone through before.
-/

namespace RemoteView

namespace Assoc

variable {κ α β : Type} [DecidableEq κ]

/-- The map with every value changed. -/
def mapValues (change : α → β) (entries : Assoc κ α) : Assoc κ β :=
  entries.map fun (key, value) => (key, change value)

theorem mapValues_insert (change : α → β) (key : κ) (value : α) (entries : Assoc κ α) :
    mapValues change (insert key value entries) =
      insert key (change value) (mapValues change entries) := by
  induction entries with
  | nil => rfl
  | cons entry rest ih =>
      obtain ⟨k, v⟩ := entry
      by_cases h : k = key
      · simp [insert, mapValues, h]
      · simpa [insert, mapValues, h] using ih

theorem mapValues_ofList (change : α → β) (entries : List (κ × α)) :
    mapValues change (ofList entries) =
      ofList (entries.map fun (key, value) => (key, change value)) := by
  have step : ∀ (rest : List (κ × α)) (done : Assoc κ α),
      mapValues change (rest.foldl (fun done (key, value) => insert key value done) done) =
        (rest.map fun (key, value) => (key, change value)).foldl
          (fun done (key, value) => insert key value done) (mapValues change done) := by
    intro rest
    induction rest with
    | nil => exact fun _ => rfl
    | cons entry rest ih =>
        intro done
        simp only [List.foldl_cons, List.map_cons, ih, mapValues_insert]
  exact step entries []

theorem get?_mapValues (change : α → β) (key : κ) (entries : Assoc κ α) :
    get? key (mapValues change entries) = (get? key entries).map change := by
  induction entries with
  | nil => rfl
  | cons entry rest ih =>
      obtain ⟨k, v⟩ := entry
      by_cases h : k = key
      · simp [mapValues, get?, h]
      · simpa [mapValues, get?, h] using ih

end Assoc

/-- What an attribute with a text is written as, after a blank. -/
def AttributeText.html (name : String) : AttributeText → String
  | .omitted => ""
  | .bare => " " ++ attributeName name
  | .valued text => " " ++ attributeName name ++ "=\"" ++ escapeHtml text ++ "\""

theorem Property.html_eq (name : String) (property : Property) :
    property.html name = property.htmlText.html name := by
  unfold Property.html
  cases property.htmlText <;> rfl

theorem Attribute.property_value (context other : ContextId) (path place : Path)
    (declared : Attribute) :
    ((declared.property context path).1, (declared.property context path).2.value?) =
      ((declared.property other place).1, (declared.property other place).2.value?) := by
  cases declared with
  | value | listener | ref => rfl
  | style style => cases style <;> rfl

theorem Attribute.property_htmlText (context other : ContextId) (path place : Path)
    (declared : Attribute) :
    ((declared.property context path).1, (declared.property context path).2.htmlText) =
      ((declared.property other place).1, (declared.property other place).2.htmlText) := by
  cases declared with
  | value | listener | ref => rfl
  | style style => cases style <;> rfl

namespace Props

theorem value?_ofAttributes (context other : ContextId) (path place : Path)
    (attributes : List Attribute) (name : String) :
    value? name (ofAttributes context path attributes) =
      value? name (ofAttributes other place attributes) := by
  have same : Assoc.mapValues Property.value? (ofAttributes context path attributes) =
      Assoc.mapValues Property.value? (ofAttributes other place attributes) := by
    simp only [ofAttributes, Assoc.mapValues_ofList, List.map_map, Function.comp_def,
      Attribute.property_value context other path place]
  have found := congrArg (Assoc.get? name) same
  rw [Assoc.get?_mapValues, Assoc.get?_mapValues] at found
  simpa [value?, Option.bind_map] using congrArg (·.bind id) found

theorem htmlText_ofAttributes (context other : ContextId) (path place : Path)
    (attributes : List Attribute) :
    Assoc.mapValues Property.htmlText (ofAttributes context path attributes) =
      Assoc.mapValues Property.htmlText (ofAttributes other place attributes) := by
  simp only [ofAttributes, Assoc.mapValues_ofList, List.map_map, Function.comp_def,
    Attribute.property_htmlText context other path place]

end Props

namespace Mounted

theorem startTag_eq (node : MountedElement) :
    startTag node = "<" ++ node.tag ++ String.join
      ((Assoc.mapValues Property.htmlText node.props).map fun (name, written) => written.html name) ++
        ">" := by
  simp only [startTag, Assoc.mapValues, List.map_map, Function.comp_def, Property.html_eq]

theorem htmlText_rendered (site other : Site) (tag : String) (attributes : List Attribute)
    (handle object : ObjectId) :
    Assoc.mapValues Property.htmlText (rendered site tag attributes handle).props =
      Assoc.mapValues Property.htmlText (rendered other tag attributes object).props := by
  have texts := Props.htmlText_ofAttributes site.context other.context site.path other.path
    attributes
  have pushed := Props.value?_ofAttributes site.context other.context site.path other.path
    attributes valueProperty
  by_cases isInput : tag = inputTag
  · simp only [rendered, inputFor, if_pos isInput, propsWith, ControlledInput.render,
      ControlledInput.new, ControlledInput.pushedValue, Assoc.mapValues_insert, texts, pushed,
      Property.htmlText]
  · simpa only [rendered, inputFor, if_neg isInput, propsWith] using texts

end Mounted

namespace Spine

/-- The start tag of an element. The context is of no account, so any will do. -/
def startTag (tag : String) (attributes : List Attribute) : String :=
  Mounted.startTag (Mounted.rendered (.root 0) tag attributes 0)

mutual
/-- What a spine looks like as HTML. -/
def html : Spine → String
  | .empty => ""
  | .text content => escapeHtml content
  | .component _ _ content _ => html content
  | .element tag children attributes =>
      if tag ∈ voidTags then startTag tag attributes
      else startTag tag attributes ++ htmlChildren children ++ "</" ++ tag ++ ">"

/-- What the children of an element look like as HTML, one after another. -/
def htmlChildren : List (UInt32 × Spine) → String
  | [] => ""
  | (_, child) :: rest => html child ++ htmlChildren rest
end

end Spine

namespace Mounted

theorem startTag_rendered (site : Site) (tag : String) (attributes : List Attribute)
    (handle : ObjectId) :
    startTag (rendered site tag attributes handle) = Spine.startTag tag attributes := by
  rw [Spine.startTag, startTag_eq, startTag_eq,
    htmlText_rendered site (.root 0) tag attributes handle 0]
  rfl

theorem html_rendered (site : Site) (tag : String) (attributes : List Attribute)
    (handle : ObjectId) {trees : List Mounted} {children : List (UInt32 × Spine)}
    (inner : htmlAll trees = Spine.htmlChildren children) :
    html (.element (rendered site tag attributes handle) trees) =
      Spine.html (.element tag children attributes) := by
  simp only [html, Spine.html, rendered_tag, startTag_rendered, inner]

theorem mount_shows_html : MountInduction (fun _ spine _ outcome => html outcome.value = spine.html)
    (fun _ children _ outcome => htmlAll outcome.value = Spine.htmlChildren children) where
  empty _ _ := rfl
  text _ _ _ := rfl
  element site tag _ attributes _ inner := html_rendered site tag attributes _ inner
  component _ _ _ _ _ _ inner := inner
  nil _ _ := rfl
  cons _ _ _ _ _ first others := by simp only [htmlAll, Spine.htmlChildren, first, others]

theorem html_mount (site : Site) (spine : Spine) (supply : Supply) :
    html (mount site spine supply).value = spine.html :=
  mount_shows_html.mount site spine supply

theorem reconcile_shows_html :
    ReconcileInduction (fun _ _ spine _ outcome => html outcome.value = spine.html)
      (fun _ _ children _ outcome => htmlAll outcome.value = Spine.htmlChildren children) where
  replace site _ spine supply _ := html_mount site spine supply
  empty _ _ := rfl
  text _ _ _ _ := rfl
  element site node _ _ attributes _ inner := html_rendered site node.tag attributes _ inner
  component _ _ _ _ _ _ _ _ inner := inner
  nil _ _ _ := rfl
  kept _ _ _ _ _ _ _ first others := by simp only [htmlAll, Spine.htmlChildren, first, others]
  new site _ index child _ supply _ others := by
    simp only [htmlAll, Spine.htmlChildren, html_mount (site.child index) child supply, others]

/-- A reconciled tree looks like its spine, whatever it was before. -/
theorem html_reconcile (site : Site) (old : Mounted) (spine : Spine) (supply : Supply) :
    html (reconcile site old spine supply).value = spine.html :=
  reconcile_shows_html.reconcile site old spine supply

end Mounted

namespace Client

/-- The part of the document before the body. -/
def headHtml (client : Client) : String :=
  let rules := client.host.styles.sheets.rules
  let style := if rules = [] then "" else "<style>" ++ String.intercalate "\n" rules ++ "</style>"
  "<head>" ++ style ++ Mounted.htmlAll client.head ++ "</head>"

/-- The body of the document. -/
def bodyHtml (client : Client) : String := "<body>" ++ client.body.html ++ "</body>"

theorem html_eq (client : Client) : client.html = client.headHtml ++ client.bodyHtml := by
  simp only [html, headHtml, bodyHtml, String.append_assoc]

theorem handleMessage_spine {message raw : Json} (client : Client)
    (received : ServerMessage.decode message = .ok (.spine raw)) :
    client.handleMessage message = client.schedule raw := by
  simp only [handleMessage, received]

/-- A push is never lost: the newest spine waits for the next frame. -/
@[simp] theorem pending_schedule (raw : Json) (client : Client) :
    (client.schedule raw).scheduler.pending = some raw := by
  simp only [schedule, Scheduler.push]
  cases client.scheduler.pending <;> rfl

@[simp] theorem host_schedule (raw : Json) (client : Client) :
    (client.schedule raw).host = client.host := rfl

@[simp] theorem body_schedule (raw : Json) (client : Client) :
    (client.schedule raw).body = client.body := rfl

@[simp] theorem head_schedule (raw : Json) (client : Client) :
    (client.schedule raw).head = client.head := rfl

theorem frame_eq_renderBody {client : Client} {session : SessionId} {raw : Json} {spine : Spine}
    (live : client.host.current = some session) (pending : client.scheduler.pending = some raw)
    (decodes : Spine.decode .root raw = .ok spine) :
    client.frame =
      (true, { client with scheduler := client.scheduler.take.2 }.renderBody session spine) := by
  simp only [frame, Scheduler.take, pending, live, decodes]

theorem body_renderBody_html (session : SessionId) (spine : Spine) (client : Client) :
    (client.renderBody session spine).body.html = spine.html :=
  Mounted.html_reconcile _ _ _ _

@[simp] theorem current_openConnection (client : Client) :
    ∃ session, client.openConnection.host.current = some session :=
  ⟨_, rfl⟩

/-- After a frame the body shows the spine that was received last and nothing else: it is that of a
    client that has just been made and has received nothing but this spine. -/
theorem frame_body_html_eq_fresh (client : Client) {session : SessionId} {message raw : Json}
    {spine : Spine} (live : client.host.current = some session)
    (received : ServerMessage.decode message = .ok (.spine raw))
    (decodes : Spine.decode .root raw = .ok spine) (location : String)
    (policy : ReconnectPolicy) :
    let after := (client.handleMessage message).frame
    let fresh := ((Client.new location policy).openConnection.handleMessage message).frame
    after.1 = true ∧ fresh.1 = true ∧ after.2.bodyHtml = fresh.2.bodyHtml := by
  obtain ⟨first, opened⟩ := current_openConnection (Client.new location policy)
  rw [handleMessage_spine _ received, handleMessage_spine _ received,
    frame_eq_renderBody (by simpa using live) (pending_schedule raw client) decodes,
    frame_eq_renderBody (by simpa using opened) (pending_schedule raw _) decodes]
  refine ⟨rfl, rfl, ?_⟩
  simp only [bodyHtml, body_renderBody_html]

/-- A client that showed an input shows a text like one that has shown nothing yet. -/
theorem frame_body_html_after_input :
    let opened := (Client.new "/" .never).openConnection
    let before := opened.renderBody 0 (.element "input" [] [.value "value" (.string "typed")])
    let message := Json.string "done"
    (before.handleMessage message).frame.1 = true ∧ (opened.handleMessage message).frame.1 = true ∧
      (before.handleMessage message).frame.2.bodyHtml =
        (opened.handleMessage message).frame.2.bodyHtml :=
  @frame_body_html_eq_fresh _ 0 _ (.string "done") (.text "done") rfl rfl (by rw [Spine.decode])
    "/" .never

end Client

end RemoteView
