import RemoteView.Text.Shorten

/-! # Where text is cut

A boundary is where a prefix of a text ends. Since a character has at most four bytes, looking back
from any place within a text meets a boundary after three steps at the latest, and what is kept is
the longest prefix that ends there or before.
-/

namespace RemoteView.Text

/-- How many bytes characters take in UTF-8. -/
def byteCount : List Char → Nat
  | [] => 0
  | c :: rest => c.utf8Size + byteCount rest

theorem byteCount_eq (text : List Char) : byteCount text = (String.ofList text).utf8ByteSize := by
  induction text with
  | nil => rfl
  | cons c rest ih =>
      rw [byteCount, ih, ← List.singleton_append, String.ofList_append, String.utf8ByteSize_append,
        ← String.singleton_eq_ofList, String.utf8ByteSize_singleton]

theorem byteCount_toList (text : String) : byteCount text.toList = text.utf8ByteSize := by
  rw [byteCount_eq, String.ofList_toList]

theorem takeBytes_append (kept rest : List Char) :
    takeBytes (kept ++ rest) (byteCount kept) = kept := by
  induction kept with
  | nil =>
      cases rest with
      | nil => rfl
      | cons c rest =>
          have wide := c.utf8Size_pos
          rw [byteCount, List.nil_append, takeBytes, if_neg (by omega)]
  | cons c kept ih =>
      rw [List.cons_append, byteCount, takeBytes, if_pos (Nat.le_add_right ..),
        Nat.add_sub_cancel_left, ih]

theorem isBoundary_iff {text : List Char} {n : Nat} :
    isBoundary text n ↔ ∃ kept rest, text = kept ++ rest ∧ byteCount kept = n := by
  induction text generalizing n with
  | nil =>
      cases n with
      | zero => exact ⟨fun _ => ⟨[], [], rfl, rfl⟩, fun _ => rfl⟩
      | succ n =>
          constructor
          · intro boundary
            cases boundary
          · rintro ⟨kept, rest, split, count⟩
            obtain ⟨rfl, -⟩ := List.nil_eq_append_iff.mp split
            cases count
  | cons c text ih =>
      cases n with
      | zero => exact ⟨fun _ => ⟨[], c :: text, rfl, rfl⟩, fun _ => rfl⟩
      | succ n =>
          rw [isBoundary, Bool.and_eq_true, decide_eq_true_eq, ih]
          constructor
          · rintro ⟨fits, kept, rest, rfl, count⟩
            exact ⟨c :: kept, rest, rfl, by rw [byteCount]; omega⟩
          · rintro ⟨kept, rest, split, count⟩
            cases kept with
            | nil => cases count
            | cons first kept =>
                obtain ⟨rfl, rfl⟩ := List.cons.inj split
                rw [byteCount] at count
                exact ⟨by omega, kept, rest, rfl, by omega⟩

/-- In the bytes of a text, boundaries are the positions at which a character begins, and the
    end. -/
theorem isBoundary_iff_isValid (text : String) (n : Nat) :
    isBoundary text.toList n ↔ (⟨n⟩ : String.Pos.Raw).IsValid text := by
  rw [isBoundary_iff, String.Pos.Raw.isValid_iff_exists_append]
  constructor
  · rintro ⟨kept, rest, split, rfl⟩
    refine ⟨String.ofList kept, String.ofList rest, ?_, ?_⟩
    · rw [← String.ofList_append, ← split, String.ofList_toList]
    · rw [byteCount_eq]
      rfl
  · rintro ⟨kept, rest, rfl, ends⟩
    refine ⟨kept.toList, rest.toList, String.toList_append, ?_⟩
    rw [byteCount_toList]
    exact (congrArg String.Pos.Raw.byteIdx ends).symm

/-- No four positions in a row are inside of one character. -/
theorem exists_boundary_near {text : List Char} {n : Nat} (within : n ≤ byteCount text) :
    ∃ steps ≤ 3, steps ≤ n ∧ isBoundary text (n - steps) := by
  induction text generalizing n with
  | nil => exact ⟨0, Nat.zero_le _, Nat.zero_le _, by obtain rfl := Nat.le_zero.mp within; rfl⟩
  | cons c text ih =>
      have narrow := c.utf8Size_le_four
      have wide := c.utf8Size_pos
      rw [byteCount] at within
      by_cases inside : n < c.utf8Size
      · -- The first character reaches beyond `n`, so its own beginning is near.
        exact ⟨n, by omega, Nat.le_refl n, by rw [Nat.sub_self]; rfl⟩
      · obtain ⟨steps, few, back, boundary⟩ := ih (n := n - c.utf8Size) (by omega)
        refine ⟨steps, few, by omega, ?_⟩
        obtain ⟨m, rest⟩ : ∃ m, n - steps = m + 1 := ⟨n - steps - 1, by omega⟩
        rw [rest, isBoundary, Bool.and_eq_true, decide_eq_true_eq, ← rest]
        exact ⟨by omega, by rwa [Nat.sub_right_comm]⟩

theorem le_lastBoundary {text : List Char} {m n : Nat} (boundary : isBoundary text m)
    (before : m ≤ n) : m ≤ lastBoundary text n := by
  induction n with
  | zero => exact before
  | succ n ih =>
      unfold lastBoundary
      split
      · exact before
      · rename_i inside
        have earlier : m ≠ n + 1 := fun same => inside (same ▸ boundary)
        exact ih (by omega)

theorem le_lastBoundary_add_three {text : List Char} {n : Nat} (within : n ≤ byteCount text) :
    n ≤ lastBoundary text n + 3 := by
  obtain ⟨steps, few, back, boundary⟩ := exists_boundary_near within
  have := le_lastBoundary boundary (Nat.sub_le n steps)
  omega

/-! ## Looking back in a text -/

/-- Looking back from a position, byte by byte, a search stops at the first position between two
    characters, after so many steps. -/
structure StopsAfter (steps : Nat) (text : String) (start : Nat) : Prop where
  le_start : steps ≤ start
  stop : lastBoundary text.toList start = start - steps
  isValid : (⟨start - steps⟩ : String.Pos.Raw).IsValid text
  inside : ∀ fewer < steps, ¬ (⟨start - fewer⟩ : String.Pos.Raw).IsValid text

theorem exists_stopsAfter {text : String} {start : Nat} (within : start ≤ text.utf8ByteSize) :
    ∃ steps ≤ 3, StopsAfter steps text start := by
  have below := lastBoundary_le text.toList start
  have near := le_lastBoundary_add_three (byteCount_toList text ▸ within)
  have back :
      start - (start - lastBoundary text.toList start) = lastBoundary text.toList start := by
    omega
  refine ⟨start - lastBoundary text.toList start, by omega, Nat.sub_le .., back.symm, ?_,
    fun fewer few valid => ?_⟩
  · rw [back, ← isBoundary_iff_isValid]
    exact isBoundary_lastBoundary ..
  · have := le_lastBoundary ((isBoundary_iff_isValid ..).mpr valid) (Nat.sub_le start fewer)
    omega

/-! ## What is kept -/

/-- What is kept of a text that has more than so many bytes: the longest prefix within them, which
    gives up at most three. -/
structure IsCut (limit : Nat) (text kept : String) : Prop where
  is_start : ∃ rest, text = kept ++ rest
  within : kept.utf8ByteSize ≤ limit
  near : limit ≤ kept.utf8ByteSize + 3
  longest : ∀ other rest, text = other ++ rest → other.utf8ByteSize ≤ limit →
    other.utf8ByteSize ≤ kept.utf8ByteSize

theorem shorten_of_fits {limit : Nat} {text : String} (fits : text.utf8ByteSize ≤ limit) :
    shorten limit text = text := if_pos fits

theorem shorten_of_lt {limit : Nat} {text : String} (long : limit < text.utf8ByteSize) :
    ∃ kept, IsCut limit text kept ∧ shorten limit text = kept ++ "…" := by
  obtain ⟨kept, rest, split, count⟩ :=
    isBoundary_iff.mp (isBoundary_lastBoundary text.toList limit)
  have size : (String.ofList kept).utf8ByteSize = lastBoundary text.toList limit := by
    rw [← byteCount_eq, count]
  refine ⟨String.ofList kept, ⟨⟨String.ofList rest, ?_⟩, ?_, ?_, ?_⟩, ?_⟩
  · rw [← String.ofList_append, ← split, String.ofList_toList]
  · exact size ▸ lastBoundary_le ..
  · exact size ▸ le_lastBoundary_add_three (byteCount_toList text ▸ Nat.le_of_lt long)
  · intro other more isStart fits
    have boundary : isBoundary text.toList other.utf8ByteSize :=
      isBoundary_iff.mpr ⟨other.toList, more.toList, isStart ▸ String.toList_append,
        byteCount_toList other⟩
    exact size ▸ le_lastBoundary boundary fits
  · have taken : takeBytes text.toList (lastBoundary text.toList limit) = kept := by
      rw [← count, split, takeBytes_append]
    simp only [shorten, if_neg (Nat.not_le.mpr long), taken]

end RemoteView.Text
