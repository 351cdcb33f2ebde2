import RemoteView.Json.Basic

/-! # The render scheduler

Of the spines that arrive between two frames only the newest is rendered. A frame is asked for when
the first of them arrives.
-/

namespace RemoteView

/-- The spine that waits for the next frame, and how many gave way to a newer one. -/
structure Scheduler where
  pending : Option Json
  superseded : Nat

namespace Scheduler

/-- Nothing waits. -/
def empty : Scheduler := ⟨none, 0⟩

/-- Store a spine, and say whether a frame has to be asked for. -/
def push (spine : Json) (scheduler : Scheduler) : Bool × Scheduler :=
  match scheduler.pending with
  | none => (true, { scheduler with pending := some spine })
  | some _ => (false, ⟨some spine, scheduler.superseded + 1⟩)

/-- Take out what waits. -/
def take (scheduler : Scheduler) : Option Json × Scheduler :=
  (scheduler.pending, { scheduler with pending := none })

end Scheduler

end RemoteView
