import RemoteView.Proofs.Wire.Framing

/-! # What is delivered of a stream

Reading any bytes from the server delivers the values of the longest run of whole frames at their
start that are within the cap and are JSON, and what follows this run says how the reading ends:
well when the stream ends there or inside of a frame, and with an error when a frame announces too
much or its payload is not JSON. Every stream is in exactly one of these cases.
-/

namespace RemoteView

/-- Does an error mean that what was read is not valid? -/
def FrameError.IsInvalidData : FrameError → Prop
  | .tooLong .. => True
  | .lengthOverflow => True
  | .invalidJson => True
  | .endOfStream => False

namespace Frame

/-- A payload and its value: the payload is within the cap, and it is the text of the value. -/
def IsGood (frame : List UInt8 × Json) : Prop :=
  Fits serverCap frame.1 ∧ Json.parseBytes? frame.1 = some frame.2

/-- The bytes of frames one after another. -/
def bytesOf (frames : List (List UInt8 × Json)) : List UInt8 :=
  (frames.map fun frame => framed frame.1).flatten

/-- A stream starts with good frames, and no longer run of them does. -/
structure StartsWith (frames : List (List UInt8 × Json)) (stream rest : List UInt8) : Prop where
  good : ∀ frame ∈ frames, IsGood frame
  whole : stream = bytesOf frames ++ rest
  longest : ∀ others left, (∀ frame ∈ others, IsGood frame) → stream = bytesOf others ++ left →
    others <+: frames

/-- A stream is empty, ends inside of a header, or ends inside of the payload after it. -/
def Ends (rest : List UInt8) : Prop :=
  rest.length < 4 ∨ ∃ a b c d body, rest = a :: b :: c :: d :: body ∧
    lengthOf a b c d ≤ serverCap ∧ body.length < lengthOf a b c d

/-- A stream starts with a header that announces more than the cap, whatever follows it. -/
def Announces (length : Nat) (rest : List UInt8) : Prop :=
  ∃ a b c d body, rest = a :: b :: c :: d :: body ∧ lengthOf a b c d = length ∧ serverCap < length

/-- A stream starts with a whole frame within the cap whose payload is not JSON. -/
def IsGarbled (rest : List UInt8) : Prop :=
  ∃ payload after, rest = framed payload ++ after ∧ Fits serverCap payload ∧
    Json.parseBytes? payload = none

variable {stream rest payload : List UInt8}

/-! ## One turn -/

/-- A stream starts with a whole frame, or it ends before one does, or it announces too much. -/
theorem start_cases (stream : List UInt8) :
    Ends stream ∨ (∃ length, Announces length stream) ∨
      ∃ payload rest, Fits serverCap payload ∧ stream = framed payload ++ rest := by
  match stream with
  | [] | [_] | [_, _] | [_, _, _] => exact .inl (.inl (by simp))
  | a :: b :: c :: d :: body =>
      by_cases tooLong : serverCap < lengthOf a b c d
      · exact .inr (.inl ⟨_, a, b, c, d, body, rfl, rfl, tooLong⟩)
      · by_cases short : body.length < lengthOf a b c d
        · exact .inl (.inr ⟨a, b, c, d, body, rfl, Nat.not_lt.mp tooLong, short⟩)
        · have reads : read serverCap (a :: b :: c :: d :: body) =
              (.ok (body.take (lengthOf a b c d)), body.drop (lengthOf a b c d)) := by
            simp only [read, announced, if_neg tooLong, List.length_take]
            rw [if_neg (by omega)]
          exact .inr (.inr ⟨_, _, framed_of_read reads⟩)

theorem read_of_ends (ends : Ends rest) : read serverCap rest = (.error .endOfStream, []) := by
  rcases ends with short | ⟨a, b, c, d, body, rfl, within, short⟩
  · match rest, short with
    | [], _ | [_], _ | [_, _], _ | [_, _, _], _ => rfl
  · simp only [read, announced, if_neg (Nat.not_lt.mpr within), List.length_take]
    rw [if_pos (by omega)]

theorem readValues_eq (stream : List UInt8) : readValues stream =
    match read serverCap stream with
    | (.error .endOfStream, _) => ([], none)
    | (.error error, _) => ([], some error)
    | (.ok payload, rest) =>
        match valueOf payload with
        | .error error => ([], some error)
        | .ok value => (value :: (readValues rest).1, (readValues rest).2) := by
  rw [readValues]
  split
  · rename_i reads
    simp only [reads]
  · rename_i reads
    simp only [reads]
  · rename_i payload _ reads
    cases valued : valueOf payload <;> simp only [reads, valued]

theorem readValues_of_ends (ends : Ends rest) : readValues rest = ([], none) := by
  rw [readValues_eq, read_of_ends ends]

theorem readValues_of_announces {length : Nat} (announces : Announces length rest) :
    readValues rest = ([], some (.tooLong length serverCap)) := by
  obtain ⟨a, b, c, d, body, rfl, rfl, tooLong⟩ := announces
  rw [readValues_eq, read_of_announced tooLong]

theorem readValues_of_isGarbled (garbled : IsGarbled rest) :
    readValues rest = ([], some .invalidJson) := by
  obtain ⟨payload, after, rfl, fits, invalid⟩ := garbled
  rw [readValues_eq, read_framed fits]
  simp only [valueOf, invalid]

theorem readValues_of_isGood {frame : List UInt8 × Json} (good : IsGood frame)
    (rest : List UInt8) : readValues (framed frame.1 ++ rest) =
      (frame.2 :: (readValues rest).1, (readValues rest).2) := by
  rw [readValues_eq, read_framed good.1]
  simp only [valueOf, good.2]

/-! ## The whole stream -/

/-- The reading of a stream stops: nothing more of it is delivered. -/
def Stops (rest : List UInt8) : Prop :=
  Ends rest ∨ (∃ length, Announces length rest) ∨ IsGarbled rest

theorem values_of_stops (stops : Stops rest) : (readValues rest).1 = [] := by
  rcases stops with ends | ⟨length, announces⟩ | garbled
  · rw [readValues_of_ends ends]
  · rw [readValues_of_announces announces]
  · rw [readValues_of_isGarbled garbled]

/-! How the reading ends tells how it stopped: the three ways have different endings. -/

theorem final_eq_none_iff (stops : Stops rest) : (readValues rest).2 = none ↔ Ends rest := by
  refine ⟨fun final => ?_, fun ends => by rw [readValues_of_ends ends]⟩
  rcases stops with ends | ⟨length, announces⟩ | garbled
  · exact ends
  · rw [readValues_of_announces announces] at final
    cases final
  · rw [readValues_of_isGarbled garbled] at final
    cases final

theorem final_eq_tooLong_iff (stops : Stops rest) (length : Nat) :
    (readValues rest).2 = some (.tooLong length serverCap) ↔ Announces length rest := by
  refine ⟨fun final => ?_, fun announces => by rw [readValues_of_announces announces]⟩
  rcases stops with ends | ⟨other, announces⟩ | garbled
  · rw [readValues_of_ends ends] at final
    cases final
  · rw [readValues_of_announces announces] at final
    cases final
    exact announces
  · rw [readValues_of_isGarbled garbled] at final
    cases final

theorem final_eq_invalidJson_iff (stops : Stops rest) :
    (readValues rest).2 = some .invalidJson ↔ IsGarbled rest := by
  refine ⟨fun final => ?_, fun garbled => by rw [readValues_of_isGarbled garbled]⟩
  rcases stops with ends | ⟨length, announces⟩ | garbled
  · rw [readValues_of_ends ends] at final
    cases final
  · rw [readValues_of_announces announces] at final
    cases final
  · exact garbled

theorem final_isInvalidData_iff (stops : Stops rest) :
    (∃ error, (readValues rest).2 = some error ∧ error.IsInvalidData) ↔
      (∃ length, Announces length rest) ∨ IsGarbled rest := by
  constructor
  · rintro ⟨error, final, -⟩
    rcases stops with ends | other
    · rw [readValues_of_ends ends] at final
      cases final
    · exact other
  · rintro (⟨length, announces⟩ | garbled)
    · exact ⟨_, (final_eq_tooLong_iff stops length).mpr announces, trivial⟩
    · exact ⟨_, (final_eq_invalidJson_iff stops).mpr garbled, trivial⟩

theorem stops_or_isGood (stream : List UInt8) :
    Stops stream ∨ ∃ frame rest, IsGood frame ∧ stream = framed frame.1 ++ rest := by
  rcases start_cases stream with ends | announces | ⟨payload, rest, fits, rfl⟩
  · exact .inl (.inl ends)
  · exact .inl (.inr (.inl announces))
  · cases valid : Json.parseBytes? payload with
    | none => exact .inl (.inr (.inr ⟨payload, rest, rfl, fits, valid⟩))
    | some value => exact .inr ⟨(payload, value), rest, ⟨fits, valid⟩, rfl⟩

@[simp] theorem bytesOf_cons (frame : List UInt8 × Json) (frames : List (List UInt8 × Json)) :
    bytesOf (frame :: frames) = framed frame.1 ++ bytesOf frames := rfl

/-- Good frames at the start of a stream determine each other. -/
theorem eq_of_isGood {frame other : List UInt8 × Json} {left : List UInt8} (good : IsGood frame)
    (isGood : IsGood other) (same : framed frame.1 ++ rest = framed other.1 ++ left) :
    frame = other ∧ rest = left := by
  have reads := read_framed good.1 rest
  rw [same, read_framed isGood.1 left] at reads
  obtain ⟨payload, rfl⟩ := Prod.mk.inj reads
  have payloads : other.1 = frame.1 := Except.ok.inj payload
  have values := good.2
  rw [← payloads, isGood.2] at values
  exact ⟨Prod.ext payloads.symm (Option.some.inj values).symm, rfl⟩

theorem readValues_bytesOf {frames : List (List UInt8 × Json)}
    (good : ∀ frame ∈ frames, IsGood frame) (rest : List UInt8) :
    readValues (bytesOf frames ++ rest) =
      (frames.map Prod.snd ++ (readValues rest).1, (readValues rest).2) := by
  induction frames with
  | nil => rfl
  | cons frame others ih =>
      obtain ⟨isGood, good⟩ := List.forall_mem_cons.mp good
      rw [bytesOf_cons, List.append_assoc, readValues_of_isGood isGood, ih good]
      rfl

theorem prefix_of_stops {frames others : List (List UInt8 × Json)} {left : List UInt8}
    (good : ∀ frame ∈ frames, IsGood frame) (isGood : ∀ frame ∈ others, IsGood frame)
    (stops : Stops rest) (same : bytesOf frames ++ rest = bytesOf others ++ left) :
    others <+: frames := by
  induction others generalizing frames with
  | nil => exact List.nil_prefix
  | cons other more ih =>
      obtain ⟨otherGood, moreGood⟩ := List.forall_mem_cons.mp isGood
      rw [bytesOf_cons, List.append_assoc] at same
      cases frames with
      | nil =>
          have values := values_of_stops stops
          rw [show rest = _ from same, readValues_of_isGood otherGood] at values
          cases values
      | cons frame frames =>
          obtain ⟨frameGood, framesGood⟩ := List.forall_mem_cons.mp good
          rw [bytesOf_cons, List.append_assoc] at same
          obtain ⟨rfl, further⟩ := eq_of_isGood frameGood otherGood same
          exact List.prefix_cons_inj _ |>.mpr (ih framesGood moreGood further)

/-- Every stream is a run of good frames, and then it stops. -/
theorem exists_startsWith (stream : List UInt8) :
    ∃ frames rest, StartsWith frames stream rest ∧ Stops rest := by
  induction length : stream.length using Nat.strongRecOn generalizing stream with
  | ind n ih =>
      rcases stops_or_isGood stream with stops | ⟨frame, rest, good, rfl⟩
      · refine ⟨[], stream, ⟨nofun, rfl, fun others left isGood whole => ?_⟩, stops⟩
        have none : ∀ frame ∈ ([] : List (List UInt8 × Json)), IsGood frame := nofun
        exact prefix_of_stops none isGood stops whole
      · have shorter : rest.length < n := by
          rw [← length, framed, List.length_append, List.length_append]
          simp only [header, List.length_cons, List.length_nil]
          omega
        obtain ⟨frames, left, starts, stops⟩ := ih rest.length shorter rest rfl
        have allGood := List.forall_mem_cons.mpr ⟨good, starts.good⟩
        have whole : framed frame.1 ++ rest = bytesOf (frame :: frames) ++ left := by
          rw [bytesOf_cons, List.append_assoc, ← starts.whole]
        refine ⟨frame :: frames, left, ⟨allGood, whole, fun others behind isGood same => ?_⟩, stops⟩
        exact prefix_of_stops allGood isGood stops (whole.symm.trans same)

theorem length_bytesOf (frames : List (List UInt8 × Json)) :
    4 * frames.length ≤ (bytesOf frames).length := by
  induction frames with
  | nil => exact Nat.le_refl _
  | cons frame others ih =>
      simp only [bytesOf_cons, framed, header, List.length_append, List.length_cons,
        List.length_nil]
      omega

/-- Of every stream the values of the longest run of good frames at its start are delivered, in
    order and each once, and nothing of what follows. The reading ends well exactly when the stream
    ends there, and with invalid data exactly when a frame announces more than the cap or has a
    payload that is not JSON. Every value takes at least four bytes. -/
theorem stream_delivered_exactly (stream : List UInt8) :
    ∃ frames rest, StartsWith frames stream rest ∧
      (readValues stream).1 = frames.map Prod.snd ∧
      ((readValues stream).2 = none ↔ Ends rest) ∧
      ((∃ error, (readValues stream).2 = some error ∧ error.IsInvalidData) ↔
        (∃ length, Announces length rest) ∨ IsGarbled rest) ∧
      (∀ length, (readValues stream).2 = some (.tooLong length serverCap) ↔
        Announces length rest) ∧
      ((readValues stream).2 = some .invalidJson ↔ IsGarbled rest) ∧
      4 * (readValues stream).1.length + rest.length ≤ stream.length := by
  obtain ⟨frames, rest, starts, stops⟩ := exists_startsWith stream
  have reads := readValues_bytesOf starts.good rest
  rw [← starts.whole, values_of_stops stops, List.append_nil] at reads
  have size := length_bytesOf frames
  have whole := congrArg List.length starts.whole
  rw [List.length_append] at whole
  rw [reads]
  refine ⟨frames, rest, starts, rfl, final_eq_none_iff stops, final_isInvalidData_iff stops,
    final_eq_tooLong_iff stops, final_eq_invalidJson_iff stops, ?_⟩
  rw [List.length_map]
  omega

end Frame

end RemoteView
