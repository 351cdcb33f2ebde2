import RemoteView.Proofs.Client.Handles
import RemoteView.Proofs.Client.Sessions

/-! # Records of what is rendered

Some properties of a client are about all that was rendered since it was new: what was pushed for an
element last, or which style was declared first. Such a record notes something of every call of the
renderer, and is kept beside the client while things happen.
-/

namespace RemoteView.Client

variable {α : Type} {note : RenderCall → Client → List α}

/-- What is noted when something happens: what is noted of the call that comes of it. -/
def notes (note : RenderCall → Client → List α) (action : Action) (client : Client) : List α :=
  match client.call? action with
  | some (ready, call) => note call ready
  | none => []

/-- Clients that can be reached, with everything that was noted on the way. -/
inductive RunNoting (note : RenderCall → Client → List α) : List α → Client → Prop
  | new (location : String) (policy : ReconnectPolicy) :
      RunNoting note [] (Client.new location policy)
  | perform {noted : List α} {client : Client} (run : RunNoting note noted client)
      (action : Action) : RunNoting note (noted ++ client.notes note action) (client.perform action)

theorem RunNoting.reachable {noted : List α} {client : Client}
    (run : RunNoting note noted client) : Reachable client := by
  induction run with
  | new location policy => exact ⟨_, .new location policy⟩
  | perform _ action ih =>
      obtain ⟨past, run⟩ := ih
      exact ⟨_, run.perform action⟩

theorem Reachable.exists_noted (note : RenderCall → Client → List α) {client : Client}
    (reachable : Reachable client) : ∃ noted, RunNoting note noted client := by
  obtain ⟨past, run⟩ := reachable
  induction run with
  | new location policy => exact ⟨_, .new location policy⟩
  | perform _ action ih =>
      obtain ⟨noted, run⟩ := ih
      exact ⟨_, run.perform action⟩

/-- Everything that is noted while things happen one after another. -/
def notesAlong (note : RenderCall → Client → List α) : List Action → Client → List α
  | [], _ => []
  | action :: rest, client =>
      client.notes note action ++ notesAlong note rest (client.perform action)

theorem RunNoting.along {noted : List α} {client : Client} (run : RunNoting note noted client)
    (actions : List Action) :
    RunNoting note (noted ++ notesAlong note actions client) (client.performAll actions) := by
  induction actions generalizing noted client with
  | nil =>
      rw [notesAlong, List.append_nil]
      exact run
  | cons action rest ih =>
      rw [notesAlong, ← List.append_assoc]
      exact ih (run.perform action)

/-! ## The client that a call is made on -/

/-- The client that a call is made on has the trees, the objects and the styles that were there, and
    after the call there is nothing but a notice. -/
structure CallMade (client ready after : Client) (call : RenderCall) : Prop where
  before : Quietly client ready
  body : ready.body = client.body
  head : ready.head = client.head
  objects : ready.host.objects = client.host.objects
  styles : ready.host.styles = client.host.styles
  done : ∃ log, after = { ready.render call with host := { (ready.render call).host with log := log } }

theorem callMade_of_call? {client ready : Client} {action : Action} {call : RenderCall}
    (named : client.host.Named) (called : client.call? action = some (ready, call)) :
    CallMade client ready (client.perform action) call := by
  have before : Quietly client ready := by
    have happens := happens_perform named action
    rw [called] at happens
    cases happens with
    | render before => exact before
  have done := perform_of_call? named called
  cases action with
  | frame =>
      simp only [call?, Option.bind_eq_bind, Option.bind_eq_some_iff, Option.pure_def,
        Option.some.injEq, Prod.mk.injEq] at called
      obtain ⟨raw, waits, session, live, spine, reads, rfl, rfl⟩ := called
      exact ⟨before, rfl, rfl, rfl, rfl, done⟩
  | renderAt key raw =>
      simp only [call?, Option.bind_eq_bind, Option.bind_eq_some_iff, Option.pure_def,
        Option.some.injEq, Prod.mk.injEq] at called
      obtain ⟨session, live, state, found, payload, reads, rfl, rfl⟩ := called
      exact ⟨before, rfl, rfl, rfl, rfl, done⟩
  | renderFragments fragments =>
      simp only [call?, Option.bind_eq_bind, Option.bind_eq_some_iff, Option.pure_def,
        Option.some.injEq, Prod.mk.injEq] at called
      obtain ⟨session, live, spines, reads, rfl, rfl⟩ := called
      exact ⟨before, rfl, rfl, rfl, rfl, done⟩
  | close | fail =>
      simp only [call?, Option.some.injEq, Prod.mk.injEq] at called
      obtain ⟨rfl, rfl⟩ := called
      exact ⟨before, rfl, rfl, rfl, rfl, done⟩
  | openConnection | message | takeFrameRequest | popState | navigate | dispatch | typeText
  | setAttribute | dispatchWindow | setGlobal | addObject => cases called

end RemoteView.Client
