import RemoteView.Proofs.Client.Inputs
import RemoteView.Proofs.Host.Styling
import RemoteView.Proofs.Style.Sheet

/-! # The style sheet of a document

All sessions, all renderings and all components write their styles into one list of rules. What is in
it is told by the style descriptors that were rendered since the client was new: one rule for the
first descriptor of each hash, in the order in which these were rendered. The class of an element
names all descriptors of its style, whatever had been written before.
-/

namespace RemoteView

/-- The class that is rendered from style descriptors: the name of each of them in order, divided by
    single spaces. -/
def StyleDescriptor.names (descriptors : List StyleDescriptor) : String :=
  String.intercalate " " (descriptors.map fun descriptor => "s" ++ descriptor.hash)

/-- Where the style of an element writes its class last, the class names all descriptors. -/
theorem Attribute.className_ofAttributes (context : ContextId) (path : Path)
    {attributes : List Attribute} {descriptors : List StyleDescriptor}
    (writes : lastWriting? classProperty attributes = some (.style (.rules descriptors))) :
    Assoc.get? classProperty (Props.ofAttributes context path attributes) =
      some (.className (StyleDescriptor.names descriptors)) := by
  rw [get?_ofAttributes, writes]
  rfl

theorem MountedElement.InStep.className {push : Push} {node : MountedElement}
    (inStep : node.InStep push) {descriptors : List StyleDescriptor}
    (writes : Attribute.lastWriting? classProperty push.attributes =
      some (.style (.rules descriptors))) :
    Assoc.get? classProperty node.props =
      some (.className (StyleDescriptor.names descriptors)) := by
  have pushed := Attribute.className_ofAttributes push.site.context push.site.path writes
  rw [inStep.props]
  cases node.input with
  | none => exact pushed
  | some input =>
      rw [Mounted.propsWith, ControlledInput.render, Assoc.get?_insert_of_ne (by decide),
        Assoc.get?_insert_of_ne (by decide)]
      exact pushed

namespace Client

variable {client after : Client}

/-- The style descriptors that a call of the renderer declares, in order. -/
def descriptors (call : RenderCall) (client : Client) : List StyleDescriptor :=
  match call with
  | .body _ spine => spine.allDescriptors
  | .head _ spines =>
      spines.flatMap Spine.descriptors ++ spines.flatMap Spine.innerDescriptors
  | .update id =>
      match client.host.instances.get? id with
      | some state =>
          if Mounted.anyHolds id client.trees then state.payload.content.allDescriptors else []
      | none => []
  | .loading => []

theorem styles_reconcileBody (site : Site) (spine : Spine) (client : Client) :
    (client.reconcileBody site spine).host.styles =
      client.host.styles.emitAll spine.innerDescriptors := by
  rw [reconcileBody, Host.styles_commit, Mounted.reconcile_styles.reconcile]

theorem styles_reconcileHead (site : Site) (spines : List Spine) (client : Client) :
    (client.reconcileHead site spines).host.styles =
      client.host.styles.emitAll (spines.flatMap Spine.innerDescriptors) := by
  rw [reconcileHead, Host.styles_commit, Mounted.styles_reconcileAll]

theorem styles_render (sound : Sound client) (call : RenderCall) :
    (client.render call).host.styles = client.host.styles.emitAll (client.descriptors call) := by
  cases call with
  | body session spine =>
      rw [render, renderBody, styles_reconcileBody, modifyHost, Host.styles_declareAll, descriptors,
        Spine.allDescriptors, RuleCompiler.emitAll_append]
  | head session spines =>
      rw [render, renderHead, styles_reconcileHead, modifyHost, Host.styles_declareEach,
        descriptors, RuleCompiler.emitAll_append]
  | update id =>
      cases found : client.host.instances.get? id with
      | none =>
          simp only [render, descriptors, found]
          rfl
      | some state =>
          have own : state.identity.id = id := sound.settled.named.id_eq found
          simp only [render, descriptors, found, renderInstance, own, trees, Mounted.anyHolds]
          by_cases inBody : client.body.holds id = true
          · rw [if_pos inBody, if_pos (by simp [inBody])]
            have written := ((Mounted.rerenders id state.payload.content).rerender client.body
              client.host.supply).styles inBody
            exact (Host.styles_commit _ _).trans (by rw [written])
          · by_cases inHead : Mounted.anyHolds id client.head = true
            · rw [if_neg inBody, if_pos inHead, if_pos (by simp [inHead])]
              have written := ((Mounted.rerenders id state.payload.content).rerenderFirst
                client.head client.host.supply).styles inHead
              exact (Host.styles_commit _ _).trans (by rw [written])
            · rw [if_neg inBody, if_neg inHead, if_neg (by simp [inBody, inHead])]
              rfl
  | loading =>
      rw [render, showLoading]
      exact (styles_reconcileBody _ _ _).trans (styles_reconcileHead _ _ _)

theorem styles_quiet (change : Quiet client after) :
    after.host.styles = client.host.styles := by
  cases change with
  | aside host => rw [host]
  | report | locate | openSession | dropSession | setAttribute | addObject | setPayload
  | changeInputs | sync => rfl
  | fire id _ event => exact (Host.CalledBack.fire id event _).styles
  | setGlobal name value => exact (Host.CalledBack.setGlobal name value _).styles

theorem styles_quietly (changes : Quietly client after) :
    after.host.styles = client.host.styles := by
  induction changes with
  | refl => rfl
  | tail _ change ih => exact (styles_quiet change).trans ih

/-- Whatever happens writes the styles that are declared by it. -/
theorem styles_perform (sound : Sound client) (action : Action) :
    (client.perform action).host.styles =
      client.host.styles.emitAll (client.notes descriptors action) := by
  unfold notes
  cases called : client.call? action with
  | none =>
      have happens := happens_perform sound.settled.named action
      rw [called] at happens
      cases happens with
      | quietly changes => exact styles_quietly changes
  | some found =>
      obtain ⟨ready, call⟩ := found
      have made := callMade_of_call? sound.settled.named called
      obtain ⟨log, done⟩ := made.done
      rw [done, ← made.styles]
      exact styles_render (made.before.preserves (fun _ _ => Sound.quiet) sound) call

theorem RunNoting.hasWritten {emitted : List StyleDescriptor}
    (run : RunNoting descriptors emitted client) :
    RuleCompiler.HasWritten emitted client.host.styles := by
  induction run with
  | new location policy => exact .empty
  | perform run action ih =>
      obtain ⟨past, reached⟩ := run.reachable
      rw [styles_perform reached.sound]
      exact ih.emitAll _

/-- However many sessions there have been and whatever was rendered in them, the rules of the
    document are those of the first descriptor of each hash, in the order in which these were
    rendered; its sheet was created once if any descriptor was rendered; and there are as many rules
    as the compiler says. A style renders to the class that names all its descriptors, on every
    host, and this is the class of the elements that were last pushed the style. -/
theorem style_sheet_written_once {emitted : List StyleDescriptor}
    (run : RunNoting descriptors emitted client) :
    client.host.styles.sheets.rules =
        (StyleDescriptor.firsts emitted).map StyleDescriptor.toCss ∧
      client.host.styles.sheets.created = (if emitted = [] then 0 else 1) ∧
      client.host.styles.emitted = client.host.styles.sheets.rules.length ∧
      (∀ host site tag children attributes used,
        Attribute.lastWriting? classProperty attributes = some (.style (.rules used)) →
          ∃ props nodes, (Host.render site (.element tag children attributes) host).1 =
              .element tag site.key props nodes ∧
            Assoc.get? classProperty props = some (.className (StyleDescriptor.names used))) ∧
      ∀ pushed, RunNoting pushes pushed client → ∀ node ∈ client.elements, ∃ push,
        Push.last? node.handle pushed = some push ∧ ∀ used,
          Attribute.lastWriting? classProperty push.attributes = some (.style (.rules used)) →
            Assoc.get? classProperty node.props =
              some (.className (StyleDescriptor.names used)) := by
  have written := run.hasWritten
  refine ⟨written.rules, written.created, written.emitted_eq, ?_, ?_⟩
  · intro host site tag children attributes used writes
    exact ⟨_, _, rfl, Attribute.className_ofAttributes site.context site.path writes⟩
  · intro pushed other node among
    obtain ⟨push, last, step⟩ := other.followsPushes.last node among
    exact ⟨push, last, fun used writes => step.className writes⟩

/-- A paragraph with two styles, the first of which has a rule and a font face of one hash, around a
    component with a style of its own. -/
def styledParagraph : Spine :=
  .element "p" [(0, .component 1 "C1" (.element "b" [] [.style (.rules
      [.rule "b" [] [] [("color", .string "blue")]])]) ⟨[], [], []⟩)]
    [.style (.rules [.rule "a" [] [] [("color", .string "red")],
      .fontFace "a" [("src", .string "a.woff")]]),
      .style (.rules [.rule "c" [] [":hover"] [("color", .string "green")]])]

/-- What leads to a client that has shown the paragraph in two sessions. -/
def showStyledTwice : List Action :=
  [.openConnection, .message styledParagraph.encode, .frame, .close, .openConnection,
    .message styledParagraph.encode, .frame]

/-- Eight descriptors were rendered in two sessions, and three rules are written for their hashes in
    one sheet. -/
theorem styled_paragraph_written_once :
    let client := (new "/" .never).performAll showStyledTwice
    let emitted := notesAlong descriptors showStyledTwice (new "/" .never)
    RunNoting descriptors emitted client ∧ emitted.length = 8 ∧
      client.host.styles.sheets.rules =
        [".sa\x7bcolor:red\x7d", ".sc:hover\x7bcolor:green\x7d", ".sb\x7bcolor:blue\x7d"] ∧
      client.host.styles.sheets.created = 1 ∧ client.host.styles.emitted = 3 := by
  intro client emitted
  have run : RunNoting descriptors emitted client :=
    (RunNoting.new "/" .never).along showStyledTwice
  obtain ⟨rules, created, count, -⟩ := style_sheet_written_once run
  have length : emitted.length = 8 := by
    unfold emitted
    cbv
  have texts : (StyleDescriptor.firsts emitted).map StyleDescriptor.toCss =
      [".sa\x7bcolor:red\x7d", ".sc:hover\x7bcolor:green\x7d", ".sb\x7bcolor:blue\x7d"] := by
    unfold emitted
    cbv
  have some : emitted ≠ [] := by
    intro none
    rw [none] at length
    cases length
  rw [texts] at rules
  rw [if_neg some] at created
  rw [rules] at count
  exact ⟨run, length, rules, created, count⟩

end Client

end RemoteView
