import Mathlib.Data.List.Infix
import Mathlib.Data.List.Nodup
import RemoteView.Style.Declarations

/-! # The text of declarations

The text of declarations can be written into one buffer, where a semicolon goes before every entry
but the one that finds the buffer empty. No entry is empty, so the buffer always holds the entries
so far with semicolons between them, whatever lists without items, names and values come: this is
the text that is rendered. The semicolons at its ends and those beside each other are then in names
and values.
-/

namespace RemoteView

namespace Assoc

variable {κ α : Type} [DecidableEq κ]

theorem insert_of_new {key : κ} {entries : Assoc κ α} (new : key ∉ keys entries) (value : α) :
    insert key value entries = entries ++ [(key, value)] := by
  induction entries with
  | nil => rfl
  | cons entry rest ih =>
      obtain ⟨here, there⟩ := not_or.mp (List.mem_cons.not.mp new)
      rw [insert, if_neg (Ne.symm here), ih there]
      rfl

theorem ofList_of_nodup {entries : List (κ × α)} (distinct : (keys entries).Nodup) :
    ofList entries = entries := by
  have step (rest : List (κ × α)) (done : Assoc κ α) (apart : (keys (done ++ rest)).Nodup) :
      rest.foldl (fun done entry => insert entry.1 entry.2 done) done = done ++ rest := by
    induction rest generalizing done with
    | nil => rw [List.foldl_nil, List.append_nil]
    | cons entry rest ih =>
        obtain ⟨key, value⟩ := entry
        have new : key ∉ keys done := by
          intro old
          rw [keys, List.map_append, List.nodup_append] at apart
          exact apart.2.2 key old key List.mem_cons_self rfl
        have longer : done ++ (key, value) :: rest = done ++ [(key, value)] ++ rest := by simp
        rw [longer] at apart ⊢
        have written := ih _ apart
        rwa [← insert_of_new new] at written ⊢
  exact step entries [] distinct

end Assoc

namespace Declarations

/-- A value that is written, with the name of its property. -/
abbrev Item := String × Json

/-- The values that are written, in order: those of a list one by one, and any other value itself.
-/
def items (declarations : Declarations) : List Item :=
  declarations.flatMap fun (name, value) =>
    match value with
    | .array values => values.map fun value => (name, value)
    | single => [(name, single)]

namespace Item

/-- The name as it is written. -/
def name (item : Item) : List Char := (hyphenate item.1).toList

/-- The value as it is written. -/
def text (item : Item) : List Char := (valueText item.2).toList

def entry (item : Item) : String := hyphenate item.1 ++ ":" ++ valueText item.2

theorem toList_entry (item : Item) : item.entry.toList = item.name ++ ':' :: item.text := by
  simp [entry, name, text]

theorem entry_ne (item : Item) : item.entry ≠ "" := by
  intro empty
  have none := congrArg String.toList empty
  simp [toList_entry] at none

end Item

/-- The entries of values with semicolons between them. -/
def joined (items : List Item) : String := String.intercalate ";" (items.map Item.entry)

/-! ## Writing into a buffer -/

/-- Write an entry, after a semicolon unless nothing is in the buffer. -/
def writeEntry (buffer : String) (item : Item) : String :=
  (if buffer = "" then buffer else buffer ++ ";") ++ item.entry

/-- Write what is declared for a property: a list entry by entry. -/
def writeProperty (buffer : String) : Item → String
  | (name, .array values) =>
      values.foldl (fun buffer value => writeEntry buffer (name, value)) buffer
  | single => writeEntry buffer single

/-- Write declarations one property after another. -/
def write (buffer : String) (declarations : Declarations) : String :=
  declarations.foldl writeProperty buffer

/-- Lists are written as if their items were properties. -/
theorem write_eq (declarations : Declarations) (buffer : String) :
    write buffer declarations = declarations.items.foldl writeEntry buffer := by
  induction declarations generalizing buffer with
  | nil => rfl
  | cons first rest ih =>
      obtain ⟨name, value⟩ := first
      have one : writeProperty buffer (name, value) =
          (items [(name, value)]).foldl writeEntry buffer := by
        cases value with
        | array values => simp [writeProperty, items, List.foldl_map]
        | null | bool | number | string | object => rfl
      have split : items ((name, value) :: rest) = items [(name, value)] ++ items rest := by
        simp [items]
      rw [split, List.foldl_append, ← one]
      exact ih _

theorem joined_eq_empty_iff (items : List Item) : joined items = "" ↔ items = [] := by
  cases items with
  | nil => simp [joined]
  | cons item rest =>
      refine iff_of_false (fun empty => item.entry_ne ?_) (List.cons_ne_nil item rest)
      cases rest with
      | nil => simpa [joined] using empty
      | cons next rest =>
          have none := congrArg String.toList empty
          simp [joined] at none

theorem joined_append (front back : List Item) : joined (front ++ back) =
    String.intercalate ";" ([joined front, joined back].filter (· ≠ "")) := by
  by_cases noFront : front = [] <;> by_cases noBack : back = []
  · simp [noFront, noBack, joined]
  · have some := (joined_eq_empty_iff back).not.mpr noBack
    simp [noFront, some, joined_eq_empty_iff]
  · have some := (joined_eq_empty_iff front).not.mpr noFront
    simp [noBack, some, joined_eq_empty_iff]
  · have some := (joined_eq_empty_iff front).not.mpr noFront
    have some' := (joined_eq_empty_iff back).not.mpr noBack
    simp only [ne_eq, some, some', not_false_eq_true, decide_true, List.filter_cons_of_pos,
      List.filter_nil, String.intercalate_cons_cons, String.intercalate_singleton]
    rw [joined, List.map_append, String.intercalate_append_of_ne_nil (by simpa) (by simpa)]
    rfl

theorem writeEntry_joined (done : List Item) (item : Item) :
    writeEntry (joined done) item = joined (done ++ [item]) := by
  have last : joined [item] = item.entry := by simp [joined]
  have some : joined [item] ≠ "" := last ▸ item.entry_ne
  unfold writeEntry
  rw [joined_append, ← last]
  split
  · rename_i empty
    simp [empty, some]
  · rename_i full
    simp [full, some]

theorem foldl_writeEntry (items done : List Item) :
    items.foldl writeEntry (joined done) = joined (done ++ items) := by
  induction items generalizing done with
  | nil => rw [List.foldl_nil, List.append_nil]
  | cons item rest ih =>
      rw [List.foldl_cons, writeEntry_joined, ih, List.append_assoc, List.singleton_append]

theorem write_eq_joined (declarations : Declarations) :
    write "" declarations = joined declarations.items :=
  (write_eq declarations "").trans (foldl_writeEntry declarations.items [])

theorem render_eq_joined (declarations : Declarations) :
    declarations.render = joined declarations.items := by
  have one (name : String) (value : Json) :
      entriesOf name value = (items [(name, value)]).map Item.entry := by
    cases value with
    | array values => simp [entriesOf, items, Item.entry]
    | null | bool | number | string | object => rfl
  have all : declarations.entries = declarations.items.map Item.entry := by
    rw [entries, items, List.map_flatMap]
    refine List.flatMap_congr fun first _ => ?_
    simpa [items] using one first.1 first.2
  rw [render, all, joined]

/-! ## Semicolons -/

/-- Where a pair that stands in two lists put together is: in one of them, or across both. -/
theorem pair_infix_append {α : Type} {a b : α} {front back : List α} :
    [a, b] <:+: front ++ back ↔ [a, b] <:+: front ∨ [a, b] <:+: back ∨
      front.getLast? = some a ∧ back.head? = some b := by
  rw [List.infix_append_iff]
  constructor
  · rintro (inFront | inBack | ⟨left, right, split, ends, starts⟩)
    · exact .inl inFront
    · exact .inr (.inl inBack)
    · rcases left with _ | ⟨first, _ | ⟨second, others⟩⟩
      · exact .inr (.inl ((show [a, b] = right from split) ▸ starts).isInfix)
      · obtain ⟨rfl, rfl⟩ : a = first ∧ [b] = right := by simpa using split
        obtain ⟨before, rfl⟩ := ends
        obtain ⟨after, rfl⟩ := starts
        exact .inr (.inr (by simp))
      · obtain ⟨rfl, rfl, rfl, rfl⟩ : a = first ∧ b = second ∧ [] = others ∧ [] = right := by
          simpa using split
        exact .inl ends.isInfix
  · rintro (inFront | inBack | ⟨last, first⟩)
    · exact .inl inFront
    · exact .inr (.inl inBack)
    · refine .inr (.inr ⟨[a], [b], rfl, ?_, ?_⟩)
      · obtain ⟨before, rfl⟩ := List.getLast?_eq_some_iff.mp last
        exact ⟨before, rfl⟩
      · obtain ⟨after, rfl⟩ := List.head?_eq_some_iff.mp first
        exact ⟨after, rfl⟩

theorem singleton_prefix_iff {α : Type} {a : α} {list : List α} :
    [a] <+: list ↔ list.head? = some a := by
  cases list <;> simp [eq_comm]

theorem toList_joined_cons (item next : Item) (rest : List Item) :
    (joined (item :: next :: rest)).toList =
      item.entry.toList ++ ';' :: (joined (next :: rest)).toList := by
  simp [joined]

/-- The text begins with the first name and its colon. -/
theorem exists_joined_cons (item : Item) (rest : List Item) :
    ∃ others, (joined (item :: rest)).toList = item.name ++ ':' :: others := by
  cases rest with
  | nil => exact ⟨item.text, by simp [joined, Item.toList_entry]⟩
  | cons next rest =>
      refine ⟨item.text ++ ';' :: (joined (next :: rest)).toList, ?_⟩
      rw [toList_joined_cons, Item.toList_entry, List.append_assoc, List.cons_append]

theorem head_joined (items : List Item) : (joined items).toList.head? = some ';' ↔
    ∃ item, items.head? = some item ∧ item.name.head? = some ';' := by
  cases items with
  | nil => simp [joined]
  | cons item rest =>
      obtain ⟨others, starts⟩ := exists_joined_cons item rest
      rw [starts, List.head?_append]
      cases begins : item.name.head? <;> simp [begins]

theorem last_joined (items : List Item) : (joined items).toList.getLast? = some ';' ↔
    ∃ item, items.getLast? = some item ∧ item.text.getLast? = some ';' := by
  induction items with
  | nil => simp [joined]
  | cons item rest ih =>
      cases rest with
      | nil =>
          have whole : (joined [item]).toList = item.name ++ ':' :: item.text := by
            simp [joined, Item.toList_entry]
          rw [whole, List.getLast?_append, List.getLast?_cons]
          cases ends : item.text.getLast? <;> simp [ends]
      | cons next rest =>
          have some := (joined_eq_empty_iff (next :: rest)).not.mpr (List.cons_ne_nil _ _)
          rw [toList_joined_cons, List.getLast?_append, List.getLast?_cons,
            List.getLast?_cons_cons, ← ih]
          have full : (joined (next :: rest)).toList.getLast? ≠ none := by simpa using some
          cases ends : (joined (next :: rest)).toList.getLast? with
          | none => exact absurd ends full
          | some c => simp

/-- Are two semicolons beside each other in the name or in the value? -/
def Item.HasPair (item : Item) : Prop :=
  [';', ';'] <:+: item.name ∨ [';', ';'] <:+: item.text

/-- Is there a semicolon at the end of the first entry or at the beginning of the second one? -/
def Item.Meets (item next : Item) : Prop :=
  item.text.getLast? = some ';' ∨ next.name.head? = some ';'

theorem pair_entry (item : Item) : [';', ';'] <:+: item.entry.toList ↔ item.HasPair := by
  rw [Item.toList_entry, pair_infix_append, List.infix_cons_iff, Item.HasPair]
  simp

/-- In a text two semicolons are beside each other where they are in a name or in a value, or where
    the one between entries comes beside one of theirs. -/
theorem pair_joined (items : List Item) : [';', ';'] <:+: (joined items).toList ↔
    (∃ item ∈ items, item.HasPair) ∨ ∃ item next, [item, next] <:+: items ∧ item.Meets next := by
  induction items with
  | nil => simp [joined]
  | cons item rest ih =>
      cases rest with
      | nil =>
          have whole : joined [item] = item.entry := by simp [joined]
          rw [whole, pair_entry]
          simp [List.infix_cons_iff]
      | cons next rest =>
          have ends : item.entry.toList.getLast? = some ';' ↔ item.text.getLast? = some ';' := by
            rw [Item.toList_entry, List.getLast?_append, List.getLast?_cons]
            cases item.text.getLast? <;> simp
          have starts : [';', ';'] <+: ';' :: (joined (next :: rest)).toList ↔
              next.name.head? = some ';' := by
            rw [List.cons_prefix_cons, singleton_prefix_iff, head_joined]
            simp
          have beside : (∃ one other, [one, other] <:+: item :: next :: rest ∧ one.Meets other) ↔
              item.Meets next ∨ ∃ one other, [one, other] <:+: next :: rest ∧ one.Meets other := by
            constructor
            · rintro ⟨one, other, here, meet⟩
              rcases List.infix_cons_iff.mp here with first | later
              · obtain ⟨rfl, others⟩ := List.cons_prefix_cons.mp first
                obtain ⟨rfl, -⟩ := List.cons_prefix_cons.mp others
                exact .inl meet
              · exact .inr ⟨one, other, later, meet⟩
            · rintro (meet | ⟨one, other, later, meet⟩)
              · exact ⟨item, next, ⟨[], rest, rfl⟩, meet⟩
              · exact ⟨one, other, List.infix_cons_iff.mpr (.inr later), meet⟩
          have within : (∃ one ∈ item :: next :: rest, one.HasPair) ↔
              item.HasPair ∨ ∃ one ∈ next :: rest, one.HasPair := List.exists_mem_cons_iff ..
          rw [toList_joined_cons, pair_infix_append, pair_entry, ends, List.infix_cons_iff, starts,
            ih, beside, within, Item.Meets]
          simp only [List.head?_cons, and_true]
          exact iff_of_eq (by ac_rfl)

/-! ## Declarations as a whole -/

/-- Semicolons at the ends of the text of declarations, and semicolons beside each other, are those
    of names and values: none of them is there to stand between entries only. -/
structure OnlyBetween (declarations : Declarations) : Prop where
  first : declarations.render.toList.head? = some ';' ↔
    ∃ item, declarations.items.head? = some item ∧ item.name.head? = some ';'
  last : declarations.render.toList.getLast? = some ';' ↔
    ∃ item, declarations.items.getLast? = some item ∧ item.text.getLast? = some ';'
  beside : [';', ';'] <:+: declarations.render.toList ↔
    (∃ item ∈ declarations.items, item.HasPair) ∨
      ∃ item next, [item, next] <:+: declarations.items ∧ item.Meets next

theorem onlyBetween (declarations : Declarations) : declarations.OnlyBetween where
  first := by rw [render_eq_joined, head_joined]
  last := by rw [render_eq_joined, last_joined]
  beside := by rw [render_eq_joined, pair_joined]

theorem items_append (front back : Declarations) :
    items (front ++ back) = items front ++ items back :=
  List.flatMap_append

/-- The text of declarations is what is written into an empty buffer: the entries of all values with
    semicolons between them. It is empty where no value is written, no semicolon stands at an end or
    beside another one on account of an entry that is empty, and maps that share no key are rendered
    together as they are rendered apart. -/
theorem declarations_rendered :
    (∀ declarations : Declarations,
      declarations.render = write "" declarations ∧
        declarations.render = String.intercalate ";" (declarations.items.map Item.entry) ∧
        (declarations.render = "" ↔ declarations.items = []) ∧ declarations.OnlyBetween) ∧
      ∀ front back : Declarations, (Assoc.keys front).Nodup → (Assoc.keys back).Nodup →
        (Assoc.keys front).Disjoint (Assoc.keys back) →
          render (Assoc.ofList (front ++ back)) =
            String.intercalate ";" ([front.render, back.render].filter (· ≠ "")) := by
  refine ⟨fun declarations => ⟨?_, ?_, ?_, declarations.onlyBetween⟩, ?_⟩
  · rw [write_eq_joined, render_eq_joined]
  · exact render_eq_joined declarations
  · rw [render_eq_joined, joined_eq_empty_iff]
  · intro front back distinct distinct' apart
    have all : (Assoc.keys (front ++ back)).Nodup := by
      rw [Assoc.keys, List.map_append]
      exact List.Nodup.append distinct distinct' apart
    rw [Assoc.ofList_of_nodup all]
    simp only [render_eq_joined, items_append, joined_append]

/-- A map with an empty list at its end, and one with a list of two. -/
theorem font_before_display :
    let front : Declarations := [("fontSize", .string "12px"), ("filter", .array [])]
    let back : Declarations := [("display", .array [.string "-webkit-box", .string "flex"])]
    (Assoc.keys front).Nodup ∧ (Assoc.keys back).Nodup ∧
      (Assoc.keys front).Disjoint (Assoc.keys back) ∧
      render (Assoc.ofList (front ++ back)) =
        "font-size:12px;display:-webkit-box;display:flex" := by
  intro front back
  have distinct : (Assoc.keys front).Nodup := by decide
  have distinct' : (Assoc.keys back).Nodup := by decide
  have apart : (Assoc.keys front).Disjoint (Assoc.keys back) := by
    simp [front, back, Assoc.keys]
  refine ⟨distinct, distinct', apart, ?_⟩
  rw [declarations_rendered.2 front back distinct distinct' apart]
  decide

end Declarations

end RemoteView
