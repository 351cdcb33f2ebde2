import RemoteView.Wire.Frame

/-! # Frames are exact

Reading a frame succeeds exactly on what writing one produces, and leaves what follows. So payloads
that are written one after another are read back one by one, and a frame that can be read has no
other written form.
-/

namespace RemoteView.Frame

/-- A payload that a frame can hold: not above the cap, and with a length that four bytes hold. -/
def Fits (cap : Nat) (payload : List UInt8) : Prop :=
  payload.length ≤ cap ∧ payload.length < UInt32.size

/-- The header of a payload and the payload. -/
def framed (payload : List UInt8) : List UInt8 := header payload.length ++ payload

/-- Write payloads one after another, up to the first that cannot be written: what has been written
    then, and why the writing ended. -/
def writeAll (cap : Nat) : List (List UInt8) → List UInt8 × Option FrameError
  | [] => ([], none)
  | payload :: rest =>
      match write cap payload with
      | .error error => ([], some error)
      | .ok bytes => (bytes ++ (writeAll cap rest).1, (writeAll cap rest).2)

variable {cap : Nat} {stream payload bytes rest : List UInt8} {payloads : List (List UInt8)}

/-! ## Headers -/

theorem lengthOf_lt (a b c d : UInt8) : lengthOf a b c d < UInt32.size := by
  have ha := a.toNat_lt
  have hb := b.toNat_lt
  have hc := c.toNat_lt
  have hd := d.toNat_lt
  simp only [lengthOf, UInt32.size]
  omega

theorem header_lengthOf (a b c d : UInt8) : header (lengthOf a b c d) = [a, b, c, d] := by
  have ha := a.toNat_lt
  have hb := b.toNat_lt
  have hc := c.toNat_lt
  have hd := d.toNat_lt
  simp only [header, lengthOf, Nat.shiftRight_eq_div_pow, List.cons.injEq, and_true]
  refine ⟨?_, ?_, ?_, ?_⟩
  all_goals
    apply UInt8.toNat_inj.mp
    rw [UInt8.toNat_ofNat']
    omega

/-! ## One frame -/

theorem write_eq_ok_iff :
    write cap payload = .ok bytes ↔ Fits cap payload ∧ bytes = framed payload := by
  unfold write Fits
  split
  · rename_i tooLong
    simp only [reduceCtorEq, false_iff]
    omega
  · split
    · rename_i overflow
      simp only [reduceCtorEq, false_iff]
      omega
    · simp only [Except.ok.injEq, framed]
      constructor
      · rintro rfl
        exact ⟨by omega, rfl⟩
      · rintro ⟨-, rfl⟩
        rfl

theorem write_of_fits (fits : Fits cap payload) : write cap payload = .ok (framed payload) :=
  write_eq_ok_iff.mpr ⟨fits, rfl⟩

theorem write_of_lt (tooLong : cap < payload.length) :
    write cap payload = .error (.tooLong payload.length cap) :=
  if_pos tooLong

theorem read_of_announced {a b c d : UInt8} (tooLong : cap < lengthOf a b c d) :
    read cap (a :: b :: c :: d :: rest) = (.error (.tooLong (lengthOf a b c d) cap), rest) := by
  simp only [read, announced, if_pos tooLong]

theorem read_framed (fits : Fits cap payload) (rest : List UInt8) :
    read cap (framed payload ++ rest) = (.ok payload, rest) := by
  have announces : announced cap (UInt8.ofNat (payload.length >>> 24))
      (UInt8.ofNat (payload.length >>> 16)) (UInt8.ofNat (payload.length >>> 8))
      (UInt8.ofNat payload.length) = .ok payload.length := by
    simp only [announced, lengthOf_header fits.2, if_neg (Nat.not_lt.mpr fits.1)]
  simp only [framed, header, List.cons_append, List.nil_append, read, announces]
  rw [List.take_left, List.drop_left, if_neg (Nat.lt_irrefl _)]

/-- What is read is a frame, and nothing after it has been touched. -/
theorem framed_of_read (reads : read cap stream = (.ok payload, rest)) :
    Fits cap payload ∧ stream = framed payload ++ rest := by
  match stream with
  | [] | [_] | [_, _] | [_, _, _] => simp [read] at reads
  | a :: b :: c :: d :: tail =>
      by_cases tooLong : cap < lengthOf a b c d
      · rw [read_of_announced tooLong] at reads
        cases reads
      · simp only [read, announced, if_neg tooLong] at reads
        split at reads
        · cases reads
        · rename_i whole
          obtain ⟨isPayload, rfl⟩ := Prod.mk.inj reads
          obtain rfl := Except.ok.inj isPayload
          have length : (tail.take (lengthOf a b c d)).length = lengthOf a b c d := by
            rw [List.length_take] at whole ⊢
            omega
          have bounded := lengthOf_lt a b c d
          refine ⟨⟨by omega, by omega⟩, ?_⟩
          rw [framed, length, header_lengthOf, List.append_assoc, List.take_append_drop]
          rfl

/-- Reading a frame undoes writing it, and nothing else can be read. -/
theorem read_eq_ok_iff : read cap stream = (.ok payload, rest) ↔
    ∃ bytes, write cap payload = .ok bytes ∧ stream = bytes ++ rest := by
  constructor
  · intro reads
    obtain ⟨fits, isFramed⟩ := framed_of_read reads
    exact ⟨framed payload, write_of_fits fits, isFramed⟩
  · rintro ⟨bytes, writes, rfl⟩
    obtain ⟨fits, rfl⟩ := write_eq_ok_iff.mp writes
    exact read_framed fits rest

/-! ## Streams of frames -/

theorem readAll_of_read (reads : read cap stream = (.ok payload, rest)) :
    readAll cap stream = (payload :: (readAll cap rest).1, (readAll cap rest).2) := by
  rw [readAll]
  split
  · rename_i fails
    rw [reads] at fails
    cases fails
  · rename_i other others again
    rw [reads] at again
    cases again
    rfl

theorem readAll_nil (cap : Nat) : readAll cap [] = ([], .endOfStream, []) := by
  rw [readAll]
  split
  · rename_i fails
    cases fails
    rfl
  · rename_i reads
    cases reads

theorem readAll_framed (fit : ∀ payload ∈ payloads, Fits cap payload) :
    readAll cap (payloads.map framed).flatten = (payloads, .endOfStream, []) := by
  induction payloads with
  | nil => exact readAll_nil cap
  | cons payload others ih =>
      obtain ⟨fits, fit⟩ := List.forall_mem_cons.mp fit
      rw [List.map_cons, List.flatten_cons, readAll_of_read (read_framed fits _), ih fit]

theorem mapM_write_of_fit (fit : ∀ payload ∈ payloads, Fits cap payload) :
    payloads.mapM (write cap) = .ok (payloads.map framed) := by
  induction payloads with
  | nil => rfl
  | cons payload others ih =>
      obtain ⟨fits, fit⟩ := List.forall_mem_cons.mp fit
      rw [List.mapM_cons, write_of_fits fits, ih fit]
      rfl

/-- Frames are exact in both directions. Payloads that fit are read back in order from their frames,
    and then the stream has ended and nothing is left of it. What has been read of a stream is just
    what is written for the payload. Of a payload above the cap nothing is written, and of a frame
    that announces one only the header is read. -/
theorem frames_exact (cap : Nat) :
    (∀ payloads : List (List UInt8),
      (∀ payload ∈ payloads, payload.length ≤ cap ∧ payload.length < UInt32.size) →
        ∃ frames, payloads.mapM (write cap) = .ok frames ∧
          readAll cap frames.flatten = (payloads, .endOfStream, [])) ∧
    (∀ stream payload rest, read cap stream = (.ok payload, rest) ↔
      ∃ bytes, write cap payload = .ok bytes ∧ stream = bytes ++ rest) ∧
    (∀ payload others, cap < payload.length →
      write cap payload = .error (.tooLong payload.length cap) ∧
        writeAll cap (payload :: others) = ([], some (.tooLong payload.length cap))) ∧
    ∀ a b c d rest, cap < lengthOf a b c d →
      read cap (a :: b :: c :: d :: rest) =
        (.error (.tooLong (lengthOf a b c d) cap), rest) := by
  refine ⟨fun payloads fit => ?_, fun _ _ _ => read_eq_ok_iff, fun payload others tooLong => ?_,
    fun _ _ _ _ _ => read_of_announced⟩
  · exact ⟨payloads.map framed, mapM_write_of_fit fit, readAll_framed fit⟩
  · exact ⟨write_of_lt tooLong, by rw [writeAll, write_of_lt tooLong]⟩

/-- With a cap of three bytes: an empty payload and one of three bytes are read back, a payload of
    four bytes is not written, and a header that announces four is all that is read. -/
theorem frames_below_four_bytes :
    (∀ payload ∈ ([[], [1, 2, 3]] : List (List UInt8)),
      payload.length ≤ 3 ∧ payload.length < UInt32.size) ∧
    (∃ frames, ([[], [1, 2, 3]] : List (List UInt8)).mapM (write 3) = .ok frames ∧
      readAll 3 frames.flatten = ([[], [1, 2, 3]], .endOfStream, [])) ∧
    (∃ bytes, write 3 [1, 2, 3] = .ok bytes ∧ [0, 0, 0, 3, 1, 2, 3, 9] = bytes ++ [9]) ∧
    3 < [1, 2, 3, 4].length ∧
    (write 3 [1, 2, 3, 4] = .error (.tooLong 4 3) ∧
      writeAll 3 [[1, 2, 3, 4], []] = ([], some (.tooLong 4 3))) ∧
    3 < lengthOf 0 0 0 4 ∧
    read 3 [0, 0, 0, 4, 1, 2, 3, 4] = (.error (.tooLong 4 3), [1, 2, 3, 4]) := by
  have fit : ∀ payload ∈ ([[], [1, 2, 3]] : List (List UInt8)),
      payload.length ≤ 3 ∧ payload.length < UInt32.size := by
    decide
  have reads : read 3 [0, 0, 0, 3, 1, 2, 3, 9] = (.ok [1, 2, 3], [9]) := by cbv
  have longer : 3 < ([1, 2, 3, 4] : List UInt8).length := by decide
  have announcesMore : 3 < lengthOf 0 0 0 4 := by decide
  obtain ⟨together, single, refused, announced⟩ := frames_exact 3
  exact ⟨fit, together _ fit, (single _ _ _).mp reads, by decide, refused _ [[]] longer,
    announcesMore, announced 0 0 0 4 [1, 2, 3, 4] announcesMore⟩

end RemoteView.Frame
