import RemoteView.Style.Sheet

/-! # What is written into style sheets

The compiler keeps a list of rules, a list of the hashes that it has written, and a sheet that it
opens when it is needed. All three are told by the descriptors that it was given: there is one rule
for the first descriptor of each hash, in the order in which these came.
-/

namespace RemoteView

namespace StyleDescriptor

/-- The first descriptor of each hash, in order. Rules and font faces share their hashes. -/
def firsts (descriptors : List StyleDescriptor) : List StyleDescriptor :=
  descriptors.eraseDupsBy fun one other => one.hash == other.hash

theorem firsts_concat (descriptors : List StyleDescriptor) (descriptor : StyleDescriptor) :
    firsts (descriptors ++ [descriptor]) =
      if descriptor.hash ∈ (firsts descriptors).map hash then firsts descriptors
      else firsts descriptors ++ [descriptor] := by
  -- The induction is on the loop of the library, with what it has kept so far, last ones first.
  have loop (rest kept : List StyleDescriptor) :
      let same (one other : StyleDescriptor) := one.hash == other.hash
      List.eraseDupsBy.loop same (rest ++ [descriptor]) kept =
        if descriptor.hash ∈ (List.eraseDupsBy.loop same rest kept).map hash then
          List.eraseDupsBy.loop same rest kept
        else List.eraseDupsBy.loop same rest kept ++ [descriptor] := by
    intro same
    induction rest generalizing kept with
    | nil =>
        have known : kept.any (same descriptor) = decide (descriptor.hash ∈ kept.map hash) := by
          rw [Bool.eq_iff_iff, List.any_eq_true, decide_eq_true_iff, List.mem_map]
          simp only [same, beq_iff_eq, eq_comm (a := descriptor.hash)]
        simp only [List.nil_append, List.eraseDupsBy.loop, known, List.map_reverse,
          List.mem_reverse]
        by_cases old : descriptor.hash ∈ kept.map hash
        · simp [old]
        · simp [old]
    | cons first rest ih =>
        simp only [List.cons_append, List.eraseDupsBy.loop]
        rcases Bool.eq_false_or_eq_true (kept.any (same first)) with old | new
        · simp only [old]
          exact ih kept
        · simp only [new]
          exact ih (first :: kept)
  exact loop descriptors []

end StyleDescriptor

namespace RuleCompiler

/-- What a compiler has written when it was given descriptors. -/
structure HasWritten (emitted : List StyleDescriptor) (compiler : RuleCompiler) : Prop where
  rules : compiler.sheets.rules = (StyleDescriptor.firsts emitted).map StyleDescriptor.toCss
  seen : compiler.seen = (StyleDescriptor.firsts emitted).map StyleDescriptor.hash
  isOpen : compiler.isOpen = decide (emitted ≠ [])
  created : compiler.sheets.created = if emitted = [] then 0 else 1

namespace HasWritten

variable {emitted : List StyleDescriptor} {compiler : RuleCompiler}

theorem empty : HasWritten [] .empty := ⟨rfl, rfl, rfl, rfl⟩

theorem emit (written : HasWritten emitted compiler) (descriptor : StyleDescriptor) :
    HasWritten (emitted ++ [descriptor]) (compiler.emit descriptor) := by
  obtain ⟨rules, seen, isOpen, created⟩ := written
  by_cases old : descriptor.hash ∈ compiler.seen
  · have some : emitted ≠ [] := by
      rintro rfl
      rw [seen] at old
      cases old
    have kept : StyleDescriptor.firsts (emitted ++ [descriptor]) =
        StyleDescriptor.firsts emitted := by
      rw [StyleDescriptor.firsts_concat, if_pos (seen ▸ old)]
    rw [RuleCompiler.emit, if_pos old]
    exact ⟨by rw [kept, rules], by rw [kept, seen], by simp [isOpen, some], by simp [created, some]⟩
  · have longer : StyleDescriptor.firsts (emitted ++ [descriptor]) =
        StyleDescriptor.firsts emitted ++ [descriptor] := by
      rw [StyleDescriptor.firsts_concat, if_neg (seen ▸ old)]
    rw [RuleCompiler.emit, if_neg old]
    refine ⟨?_, by rw [longer, List.map_append, ← seen]; rfl, by simp, ?_⟩
    · -- The rule goes to the end, whether or not the sheet has to be opened for it.
      have sheets : (if compiler.isOpen then compiler.sheets else compiler.sheets.create).rules =
          compiler.sheets.rules := by
        split <;> rfl
      simp only [StyleSheets.insertRule, sheets, List.take_length, List.drop_length]
      rw [longer, List.map_append, ← rules]
      rfl
    · by_cases first : emitted = []
      · simp [StyleSheets.insertRule, StyleSheets.create, isOpen, created, first]
      · simp [StyleSheets.insertRule, isOpen, created, first]

theorem emitAll (written : HasWritten emitted compiler) (descriptors : List StyleDescriptor) :
    HasWritten (emitted ++ descriptors) (compiler.emitAll descriptors) := by
  induction descriptors generalizing emitted compiler with
  | nil =>
      rw [List.append_nil]
      exact written
  | cons first rest ih =>
      rw [← List.singleton_append, ← List.append_assoc]
      exact ih (written.emit first)

/-- As many descriptors count as written as there are rules. -/
theorem emitted_eq (written : HasWritten emitted compiler) :
    compiler.emitted = compiler.sheets.rules.length := by
  rw [RuleCompiler.emitted, written.seen, written.rules, List.length_map, List.length_map]

end HasWritten

end RuleCompiler

end RemoteView
