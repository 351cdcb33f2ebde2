import RemoteView.Client.Connection
import RemoteView.Proofs.Spine.Faults

/-! # What cannot be read changes nothing

A spine, a payload or the fragments of a head are read as a whole before anything is rendered. If
any node of them has a fault, whatever comes before it in the tree leaves no trace: the client gives
notices, and a frame has used up the spine that waited.
-/

namespace RemoteView

theorem Except.mapM_error_of_mem {ε α β : Type} {read : β → Except ε α} {raw : β} {error : ε}
    (fails : read raw = .error error) {raws : List β} (among : raw ∈ raws) :
    ∃ error, raws.mapM read = .error error := by
  induction raws with
  | nil => cases among
  | cons first rest ih =>
      rw [List.mapM_cons]
      cases isFirst : read first with
      | error other => exact ⟨other, rfl⟩
      | ok value =>
          rcases List.mem_cons.mp among with rfl | later
          · rw [fails] at isFirst
            cases isFirst
          · obtain ⟨other, fails⟩ := ih later
            exact ⟨other, by rw [fails]; rfl⟩

namespace Client

/-- The client with further notices and nothing else changed. -/
def noting (notices : List Notice) (client : Client) : Client :=
  client.modifyHost fun host => { host with log := host.log ++ notices }

/-- The client with no spine waiting and nothing else changed. -/
def dropPending (client : Client) : Client :=
  { client with scheduler := client.scheduler.take.2 }

theorem noting_nil (client : Client) : client.noting [] = client := by
  simp only [noting, modifyHost, List.append_nil]

variable (client : Client)

theorem frame_of_isFaulty {raw : Json} (faulty : raw.IsFaulty)
    (waits : client.scheduler.pending = some raw) :
    ∃ notices, client.frame = (false, client.dropPending.noting notices) := by
  obtain ⟨error, fails⟩ := Spine.decode_of_isFaulty faulty .root
  unfold frame
  simp only [Scheduler.take, waits]
  cases client.host.current with
  | none => exact ⟨[], by rw [noting_nil]; rfl⟩
  | some session =>
      simp only [fails]
      exact ⟨[.abandonedRender .frame error], rfl⟩

theorem renderAt_of_isFaultyPayload {raw : Json} (faulty : raw.IsFaultyPayload) (key : String) :
    ∃ notices, client.renderAt key raw = (false, client.noting notices) := by
  unfold renderAt
  cases client.host.current with
  | none => exact ⟨[], by rw [noting_nil]⟩
  | some session =>
      simp only
      cases client.host.mountedAt session key with
      | none => exact ⟨[.noComponentAt key], rfl⟩
      | some state =>
          obtain ⟨error, fails⟩ := Payload.decode_of_isFaultyPayload faulty state.identity.path
          simp only [fails]
          exact ⟨[.abandonedRender .component error], rfl⟩

theorem renderFragments_of_isFaulty {raw : Json} (faulty : raw.IsFaulty) {fragments : List Json}
    (among : raw ∈ fragments) :
    ∃ notices, client.renderFragments fragments = (false, client.noting notices) := by
  unfold renderFragments
  cases client.host.current with
  | none => exact ⟨[], by rw [noting_nil]⟩
  | some session =>
      obtain ⟨fault, unreadable⟩ := Spine.decode_of_isFaulty faulty .root
      obtain ⟨error, fails⟩ := Except.mapM_error_of_mem unreadable among
      simp only [fails]
      exact ⟨[.abandonedRender .head error], rfl⟩

/-- A frame, a payload for a component, and fragments for the head: with a fault anywhere in what is
    to be rendered the answer is that nothing was rendered, and only notices are given. A frame has
    taken the spine that waited. -/
theorem unreadable_changes_nothing {raw payload : Json} (faulty : raw.IsFaulty)
    (faultyPayload : payload.IsFaultyPayload) :
    (client.scheduler.pending = some raw →
        ∃ notices, client.frame = (false, client.dropPending.noting notices)) ∧
      (∀ key, ∃ notices, client.renderAt key payload = (false, client.noting notices)) ∧
      ∀ fragments, raw ∈ fragments →
        ∃ notices, client.renderFragments fragments = (false, client.noting notices) :=
  ⟨client.frame_of_isFaulty faulty, client.renderAt_of_isFaultyPayload faultyPayload,
    fun _ => client.renderFragments_of_isFaulty faulty⟩

/-- An element with a styled paragraph that listens, followed by a node of no known shape. -/
def styledThenUnknown : Json :=
  .object [("tag", .string "div"), ("children", .array [
    .array [.ofUInt32 0, .object [("tag", .string "p"), ("attributes", .array [
      .array [.string "ASTY", .array [.array [.ofUInt64 1, .string "h", .array [], .array [],
        .object [("color", .string "red")]]]],
      .array [.string "AEVL", .array [.ofUInt64 1, .string "click", .array [.string "NothingE"]]]])]],
    .array [.ofUInt32 1, .object [("type", .string "Portal")]]])]

theorem isFaulty_styledThenUnknown : styledThenUnknown.IsFaulty := by
  refine ⟨.object [("type", .string "Portal")], ?_, .root, ⟨.root, .unknownShape "Portal"⟩, ?_⟩
  · exact .child rfl rfl (List.mem_cons_of_mem _ List.mem_cons_self) .here
  · rw [Spine.decode]
    rfl

/-- After opening a connection and receiving that element the frame renders nothing; neither does
    the element as the content of a component, nor as one of two fragments. -/
theorem styledThenUnknown_changes_nothing :
    let client := ((new "/" .never).openConnection.handleMessage styledThenUnknown)
    client.scheduler.pending = some styledThenUnknown ∧
      (∃ notices, client.frame = (false, client.dropPending.noting notices)) ∧
      (∃ notices, client.renderAt "0" (.object [("spine", styledThenUnknown)]) =
        (false, client.noting notices)) ∧
      ∃ notices, client.renderFragments [.string "title", styledThenUnknown] =
        (false, client.noting notices) := by
  intro client
  have waits : client.scheduler.pending = some styledThenUnknown := rfl
  have faultyPayload : (Json.object [("spine", styledThenUnknown)]).IsFaultyPayload :=
    .inr ⟨styledThenUnknown, rfl, isFaulty_styledThenUnknown⟩
  obtain ⟨framed, placed, fragments⟩ :=
    client.unreadable_changes_nothing isFaulty_styledThenUnknown faultyPayload
  exact ⟨waits, framed waits, placed "0", fragments _ (by simp)⟩

end Client

end RemoteView
