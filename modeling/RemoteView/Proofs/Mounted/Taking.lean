import RemoteView.Proofs.Mounted.Matching
import RemoteView.Proofs.Mounted.Outcome

/-! # Taking over old children

New children take old ones over by position. A slot is emptied by the first one that asks for it,
and only children with the same key ask for the same slot. So it is known from the keys alone who
takes which; the old children that nobody takes are unmounted when all new ones are there.
-/

namespace RemoteView.Matching

variable {κ α β : Type} [DecidableEq κ]

/-- The new child at a position takes the old child at another one. They have the same key. With a
    key, it is the first new child that has it and the last old one; without one, they stand at the
    same position. -/
def Takes (oldKeys keys : List (Option κ)) (i j : Nat) : Prop :=
  ∃ key, keys[i]? = some key ∧ oldKeys[j]? = some key ∧
    match key with
    | none => i = j
    | some _ => (∀ earlier < i, keys[earlier]? ≠ some key) ∧
        ∀ later > j, oldKeys[later]? ≠ some key

namespace Takes

variable {oldKeys keys : List (Option κ)} {i j : Nat}

omit [DecidableEq κ] in
theorem unique {other : Nat} (takes : Takes oldKeys keys i j) (again : Takes oldKeys keys other j) :
    i = other := by
  obtain ⟨key, isKey, ofOld, how⟩ := takes
  obtain ⟨key', isKey', ofOld', how'⟩ := again
  obtain rfl : key = key' := Option.some.inj (ofOld.symm.trans ofOld')
  cases key with
  | none => exact how.trans how'.symm
  | some key =>
      rcases Nat.lt_trichotomy i other with before | same | behind
      · exact absurd isKey (how'.1 i before)
      · exact same
      · exact absurd isKey' (how.1 other behind)

omit [DecidableEq κ] in
theorem same_key (takes : Takes oldKeys keys i j) :
    ∃ key, keys[i]? = some key ∧ oldKeys[j]? = some key := by
  obtain ⟨key, isKey, ofOld, -⟩ := takes
  exact ⟨key, isKey, ofOld⟩

omit [DecidableEq κ] in
theorem iff_of_unkeyed (unkeyed : keys[i]? = some none) :
    Takes oldKeys keys i j ↔ j = i ∧ oldKeys[i]? = some none := by
  constructor
  · rintro ⟨key, isKey, ofOld, how⟩
    obtain rfl : key = none := Option.some.inj (isKey.symm.trans unkeyed)
    obtain rfl : i = j := how
    exact ⟨rfl, ofOld⟩
  · rintro ⟨rfl, ofOld⟩
    exact ⟨none, unkeyed, ofOld, rfl⟩

end Takes

/-! ## Requests -/

theorem lastWith?_eq_none_iff {key : κ} {keys : List (Option κ)} :
    lastWith? key keys = none ↔ ∀ position : Nat, keys[position]? ≠ some (some key) := by
  induction keys with
  | nil => simp [lastWith?]
  | cons first rest ih =>
      rw [lastWith?, ← Nat.and_forall_add_one]
      cases later : lastWith? key rest with
      | some inner =>
          have there := key_of_lastWith? later
          exact iff_of_false (Option.some_ne_none _) fun absent => absent.2 inner there
      | none =>
          have absent := ih.mp later
          by_cases here : first = some key <;> simp [here, absent]

theorem lastWith?_eq_some_iff {key : κ} {keys : List (Option κ)} {position : Nat} :
    lastWith? key keys = some position ↔ keys[position]? = some (some key) ∧
      ∀ later > position, keys[later]? ≠ some (some key) := by
  induction keys generalizing position with
  | nil => simp [lastWith?]
  | cons first rest ih =>
      cases position with
      | zero =>
          have behind : (∀ later > 0, (first :: rest)[later]? ≠ some (some key)) ↔
              lastWith? key rest = none := by
            rw [lastWith?_eq_none_iff]
            constructor
            · exact fun absent later => absent (later + 1) (Nat.succ_pos later)
            · intro absent later beyond
              obtain ⟨later, rfl⟩ := Nat.exists_eq_succ_of_ne_zero (Nat.ne_of_gt beyond)
              exact absent later
          rw [behind, lastWith?]
          cases lastWith? key rest with
          | some inner => simp
          | none => simp
      | succ position =>
          have behind : (∀ later > position + 1, (first :: rest)[later]? ≠ some (some key)) ↔
              ∀ later > position, rest[later]? ≠ some (some key) := by
            constructor
            · exact fun absent later beyond => absent (later + 1) (Nat.succ_lt_succ beyond)
            · intro absent later beyond
              obtain ⟨later, rfl⟩ := Nat.exists_eq_succ_of_ne_zero (Nat.ne_zero_of_lt beyond)
              exact absent later (Nat.lt_of_succ_lt_succ beyond)
          rw [behind, List.getElem?_cons_succ, ← ih, lastWith?]
          cases lastWith? key rest with
          | some inner => simp
          | none => simp

/-- A new child asks for the last old child with its key, or for the one at its own position if
    neither has a key. -/
theorem request_eq_some_iff {oldKeys : List (Option κ)} {i j : Nat} {key : Option κ} :
    request oldKeys i key = some j ↔ oldKeys[j]? = some key ∧
      match key with
      | none => i = j
      | some _ => ∀ later > j, oldKeys[later]? ≠ some key := by
  cases key with
  | none =>
      rw [request]
      constructor
      · intro asked
        split at asked
        · rename_i unkeyed
          obtain rfl := Option.some.inj asked
          exact ⟨unkeyed, rfl⟩
        · cases asked
      · rintro ⟨unkeyed, rfl⟩
        rw [if_pos unkeyed]
  | some key => exact lastWith?_eq_some_iff

/-! ## Serving -/

section Serve

omit [DecidableEq κ]

/-- What is in a slot goes to the first one who asks for it. -/
theorem serve_eq_some_iff {slots : List (Option α)} {asked : List (Option Nat)} {i : Nat}
    {value : α} : (serve slots asked).1[i]? = some (some value) ↔
      ∃ position, asked[i]? = some (some position) ∧ slots[position]? = some (some value) ∧
        ∀ earlier < i, asked[earlier]? ≠ some (some position) := by
  induction asked generalizing slots i with
  | nil => simp [serve]
  | cons first rest ih =>
      cases i with
      | zero =>
          cases first with
          | none => simp [serve]
          | some place => simp [serve, Option.join_eq_some_iff]
      | succ i =>
          cases first with
          | none =>
              simp only [serve, List.getElem?_cons_succ, ih, Nat.forall_lt_succ_left,
                List.getElem?_cons_zero, ne_eq, Option.some.injEq, reduceCtorEq, not_false_eq_true,
                true_and]
          | some place =>
              have emptied (position : Nat) :
                  (slots.set place none)[position]? = some (some value) ↔
                    slots[position]? = some (some value) ∧ place ≠ position := by
                rw [List.getElem?_set]
                by_cases same : place = position <;> simp [same]
              simp only [serve, List.getElem?_cons_succ, ih, emptied, Nat.forall_lt_succ_left,
                List.getElem?_cons_zero, ne_eq, Option.some.injEq, and_assoc]

theorem left_serve (slots : List (Option α)) (asked : List (Option Nat)) (j : Nat) :
    (serve slots asked).2[j]? =
      if some j ∈ asked then (slots[j]?).map fun _ => none else slots[j]? := by
  induction asked generalizing slots with
  | nil => simp [serve]
  | cons first rest ih =>
      cases first with
      | none => simp [serve, ih]
      | some place =>
          simp only [serve, ih, List.getElem?_set, List.mem_cons, Option.some.injEq]
          by_cases same : place = j
          · subst same
            by_cases inside : place < slots.length <;> simp [inside]
          · simp [same, Ne.symm same]

/-- Serving does not look at what is in the slots. -/
theorem serve_bind (content : α → Option β) (slots : List (Option α)) (asked : List (Option Nat)) :
    serve (slots.map (·.bind content)) asked =
      ((serve slots asked).1.map (·.bind content), (serve slots asked).2.map (·.bind content)) := by
  induction asked generalizing slots with
  | nil => rfl
  | cons first rest ih =>
      cases first with
      | none => simp [serve, ih]
      | some place =>
          have emptied : (slots.map (·.bind content)).set place none =
              (slots.set place none).map (·.bind content) := by simp [List.map_set]
          have found : ((slots.map (·.bind content))[place]?).join =
              (slots[place]?).join.bind content := by
            rw [List.getElem?_map]
            cases slots[place]? <;> rfl
          simp only [serve, emptied, found, ih, List.map_cons]

end Serve

/-! ## What is taken -/

/-- For each new child the position of the old child that it takes. -/
def taken (oldKeys keys : List (Option κ)) : List (Option Nat) :=
  (serve ((List.range oldKeys.length).map some) (requests oldKeys 0 keys)).1

/-- The positions of the old children that no new child takes. -/
def untaken (count : Nat) (taken : List (Option Nat)) : List Nat :=
  (List.range count).filter fun j => some j ∉ taken

theorem taken_eq_some_iff {oldKeys keys : List (Option κ)} {i j : Nat} :
    (taken oldKeys keys)[i]? = some (some j) ↔ Takes oldKeys keys i j := by
  have slot (position : Nat) : ((List.range oldKeys.length).map some)[position]? = some (some j) ↔
      position = j ∧ j < oldKeys.length := by
    simp only [List.getElem?_map, Option.map_eq_some_iff, Option.some.injEq,
      List.getElem?_eq_some_iff, List.length_range, List.getElem_range]
    grind
  have asks (e : Nat) : (requests oldKeys 0 keys)[e]? = some (some j) ↔
      ∃ key, keys[e]? = some key ∧ request oldKeys e key = some j := by
    rw [requests_getElem?, Nat.zero_add, Option.map_eq_some_iff]
  rw [taken, serve_eq_some_iff]
  constructor
  · rintro ⟨position, asked, isSlot, first⟩
    obtain ⟨rfl, -⟩ := (slot position).mp isSlot
    obtain ⟨key, isKey, requested⟩ := (asks i).mp asked
    obtain ⟨ofOld, how⟩ := request_eq_some_iff.mp requested
    refine ⟨key, isKey, ofOld, ?_⟩
    cases key with
    | none => exact how
    | some key =>
        exact ⟨fun earlier before again => first earlier before
          ((asks earlier).mpr ⟨_, again, request_eq_some_iff.mpr ⟨ofOld, how⟩⟩), how⟩
  · rintro ⟨key, isKey, ofOld, how⟩
    have inside := (List.getElem?_eq_some_iff.mp ofOld).1
    -- Whoever asks for the same position asks with the same key.
    have sameKey {e : Nat} (asked : (requests oldKeys 0 keys)[e]? = some (some j)) :
        keys[e]? = some key ∧ request oldKeys e key = some j := by
      obtain ⟨other, isOther, requested⟩ := (asks e).mp asked
      obtain rfl : key = other :=
        Option.some.inj (ofOld.symm.trans (request_eq_some_iff.mp requested).1)
      exact ⟨isOther, requested⟩
    cases key with
    | none =>
        refine ⟨j, (asks i).mpr ⟨none, isKey, request_eq_some_iff.mpr ⟨ofOld, how⟩⟩,
          (slot j).mpr ⟨rfl, inside⟩, fun earlier before asked => ?_⟩
        have own : earlier = j := (request_eq_some_iff.mp (sameKey asked).2).2
        exact Nat.ne_of_lt before (own.trans how.symm)
    | some key =>
        exact ⟨j, (asks i).mpr ⟨_, isKey, request_eq_some_iff.mpr ⟨ofOld, how.2⟩⟩,
          (slot j).mpr ⟨rfl, inside⟩, fun earlier before asked => how.1 earlier before
            (sameKey asked).1⟩

theorem left_eq_untaken (oldKeys keys : List (Option κ)) :
    (serve ((List.range oldKeys.length).map some) (requests oldKeys 0 keys)).2.filterMap id =
      untaken oldKeys.length (taken oldKeys keys) := by
  have left : (serve ((List.range oldKeys.length).map some) (requests oldKeys 0 keys)).2 =
      (List.range oldKeys.length).map
        (Option.guard fun j => some j ∉ requests oldKeys 0 keys) := by
    refine List.ext_getElem? fun j => ?_
    rw [left_serve]
    by_cases inside : j < oldKeys.length
    · by_cases asked : some j ∈ requests oldKeys 0 keys <;> simp [inside, asked, Option.guard]
    · simp [inside]
  have all := perm_serve ((List.range oldKeys.length).map some) (requests oldKeys 0 keys)
  rw [left, List.filterMap_map, List.filterMap_map, Function.id_comp, Function.id_comp,
    List.filterMap_eq_filter, List.filterMap_some] at all
  rw [left, List.filterMap_map, Function.id_comp, List.filterMap_eq_filter, untaken]
  refine List.filter_congr fun j inside => ?_
  have somewhere := all.mem_iff (a := j)
  simp only [inside, iff_true, List.mem_append, List.mem_filterMap, id_eq, exists_eq_right,
    List.mem_filter, decide_eq_true_eq, true_and] at somewhere
  have asked : some j ∈ taken oldKeys keys → some j ∈ requests oldKeys 0 keys := by
    intro among
    obtain ⟨i, there⟩ := List.mem_iff_getElem?.mp among
    obtain ⟨position, requested, slot⟩ := serve_mem there
    obtain rfl : position = j := by
      simp only [List.getElem?_map, Option.map_eq_some_iff, Option.some.injEq] at slot
      grind
    exact List.mem_of_getElem? requested
  simp only [decide_eq_decide]
  exact ⟨fun unasked among => unasked (asked among), fun left => somewhere.resolve_left left⟩

theorem assign_eq (keyOf : α → Option κ) (old : List α) (keys : List (Option κ)) :
    assign keyOf old keys =
      ((taken (old.map keyOf) keys).map (·.bind fun j => old[j]?),
        (untaken old.length (taken (old.map keyOf) keys)).filterMap fun j => old[j]?) := by
  have slots : old.map some = ((List.range (old.map keyOf).length).map some).map
      (·.bind fun j => old[j]?) := by
    refine List.ext_getElem (by simp) fun j _ _ => ?_
    simp
  have left := left_eq_untaken (old.map keyOf) keys
  rw [List.length_map] at left
  rw [← left, List.filterMap_filterMap]
  simp only [assign, slots, serve_bind, List.filterMap_map, List.length_map, taken]
  rfl

/-- Who takes which of the old children: every new child is answered, and the keys decide. -/
structure IsMatching (oldKeys keys : List (Option κ)) (taken : List (Option Nat)) : Prop where
  length_eq : taken.length = keys.length
  exact : ∀ i j : Nat, taken[i]? = some (some j) ↔ Takes oldKeys keys i j
  /-- Every old child is taken once or left once. -/
  perm : (taken.filterMap id ++ untaken oldKeys.length taken).Perm (List.range oldKeys.length)
  /-- No old child is taken twice. -/
  once : ∀ i other j : Nat, taken[i]? = some (some j) → taken[other]? = some (some j) → i = other
  same_key : ∀ i j : Nat, taken[i]? = some (some j) →
    ∃ key, keys[i]? = some key ∧ oldKeys[j]? = some key
  unkeyed : ∀ i j : Nat, keys[i]? = some none →
    (taken[i]? = some (some j) ↔ j = i ∧ oldKeys[i]? = some none)
  keyed : (oldKeys.filterMap id).Nodup → ∀ (i j : Nat) (key : κ), keys[i]? = some (some key) →
    (∀ earlier < i, keys[earlier]? ≠ some (some key)) → oldKeys[j]? = some (some key) →
      taken[i]? = some (some j)

theorem isMatching_taken (oldKeys keys : List (Option κ)) :
    IsMatching oldKeys keys (taken oldKeys keys) where
  length_eq := by simp [taken]
  exact _ _ := taken_eq_some_iff
  perm := by
    have all := perm_serve ((List.range oldKeys.length).map some) (requests oldKeys 0 keys)
    rwa [left_eq_untaken, List.filterMap_map, Function.id_comp, List.filterMap_some] at all
  once _ _ _ takes again :=
    (taken_eq_some_iff.mp takes).unique (taken_eq_some_iff.mp again)
  same_key _ _ takes := (taken_eq_some_iff.mp takes).same_key
  unkeyed _ _ unkeyed := taken_eq_some_iff.trans (Takes.iff_of_unkeyed unkeyed)
  keyed distinct _ _ _ isKey first ofOld := taken_eq_some_iff.mpr
    ⟨_, isKey, ofOld, first, (lastWith?_eq_some_iff.mp (lastWith?_eq distinct ofOld)).2⟩

end RemoteView.Matching

/-! ## Children -/

namespace RemoteView.Mounted

/-- The key of the node that a spine is at a site. -/
def nodeKey (node : Site × Spine) : Option UInt32 := node.2.keyAt node.1.key

/-- What nodes come to, one after another, each with the old tree that it takes over or with
    none. -/
def outcomes : List (Option Mounted × Site × Spine) → Supply → List (Outcome Mounted)
  | [], _ => []
  | (old, site, spine) :: rest, supply =>
      let first := reconcileMatched site old spine supply
      first :: outcomes rest first.supply

@[simp] theorem length_outcomes (nodes : List (Option Mounted × Site × Spine)) (supply : Supply) :
    (outcomes nodes supply).length = nodes.length := by
  induction nodes generalizing supply with
  | nil => rfl
  | cons node rest ih => simp [outcomes, ih]

/-- An outcome is what nodes come to in order, and further steps after theirs. -/
structure Gathers (outcome : Outcome (List Mounted)) (each : List (Outcome Mounted))
    (further : List Step) : Prop where
  value : outcome.value = each.map Outcome.value
  steps : outcome.steps = each.flatMap Outcome.steps ++ further
  effects : outcome.effects = each.flatMap Outcome.effects

namespace Gathers

theorem nil (supply : Supply) : Gathers ⟨[], [], [], supply⟩ [] [] := ⟨rfl, rfl, rfl⟩

theorem cons {others : Outcome (List Mounted)} {each : List (Outcome Mounted)}
    (gathers : Gathers others each []) (first : Outcome Mounted) :
    Gathers ⟨first.value :: others.value, first.steps ++ others.steps,
      first.effects ++ others.effects, others.supply⟩ (first :: each) [] where
  value := by rw [gathers.value, List.map_cons]
  steps := by rw [gathers.steps, List.flatMap_cons, List.append_assoc]
  effects := by rw [gathers.effects, List.flatMap_cons]

end Gathers

theorem reconcileEach_gathers (site : Site) :
    EachInduction site fun pairs supply outcome =>
      Gathers outcome (outcomes (pairs.map fun (old, spine) => (old, site, spine)) supply) [] where
  nil supply := .nil supply
  new spine _ supply others := others.cons (mount site spine supply)
  kept old spine _ supply others := others.cons (reconcile site old spine supply)

/-- The children of a spine at a site as nodes. -/
def childNodes (site : Site) (children : List (UInt32 × Spine)) : List (Site × Spine) :=
  children.map fun (index, child) => (site.child index, child)

theorem reconcileChildren_gathers (site : Site) {matched : List (Option Mounted)}
    {children : List (UInt32 × Spine)} (length : matched.length = children.length)
    (supply : Supply) : Gathers (reconcileChildren site matched children supply)
      (outcomes (matched.zip (childNodes site children)) supply) [] := by
  induction children generalizing matched supply with
  | nil =>
      obtain rfl := List.eq_nil_of_length_eq_zero length
      exact .nil supply
  | cons entry rest ih =>
      obtain ⟨index, child⟩ := entry
      obtain ⟨old, matched, rfl⟩ := List.exists_cons_of_length_eq_add_one length
      have others (next : Supply) := ih (Nat.succ.inj length) next
      cases old with
      | some old =>
          rw [reconcileChildren_kept]
          exact (others _).cons (reconcile (site.child index) old child supply)
      | none =>
          rw [reconcileChildren_new site rfl]
          exact (others _).cons (mount (site.child index) child supply)

theorem unmountAll_eq_flatMap (trees : List Mounted) :
    unmountAll trees = trees.flatMap unmount := by
  induction trees with
  | nil => rfl
  | cons tree rest ih => rw [unmountAll, ih, List.flatMap_cons]

/-- Old trees are turned into new nodes. It is settled who takes which; then the nodes are gone
    through in order, each with the tree it takes, and give one tree each; then the trees that
    nobody takes are unmounted, each once. -/
structure TakesOver (old : List Mounted) (nodes : List (Site × Spine)) (supply : Supply)
    (taken : List (Option Nat)) (outcome : Outcome (List Mounted)) : Prop where
  matching : Matching.IsMatching (old.map key) (nodes.map nodeKey) taken
  gathers : Gathers outcome
    (outcomes ((taken.map (·.bind fun j => old[j]?)).zip nodes) supply)
    (((Matching.untaken old.length taken).filterMap fun j => old[j]?).flatMap unmount)
  length_eq : outcome.value.length = nodes.length

/-- What is gathered from the nodes with what they take, before all that is left is unmounted. -/
theorem TakesOver.of_gathers {old : List Mounted} {nodes : List (Site × Spine)} {supply : Supply}
    {inner : Outcome (List Mounted)}
    (gathers : Gathers inner
      (outcomes ((Matching.assign key old (nodes.map nodeKey)).1.zip nodes) supply) []) :
    TakesOver old nodes supply (Matching.taken (old.map key) (nodes.map nodeKey))
      ⟨inner.value,
        inner.steps ++ unmountAll (Matching.assign key old (nodes.map nodeKey)).2,
        inner.effects, inner.supply⟩ := by
  have matching := Matching.isMatching_taken (old.map key) (nodes.map nodeKey)
  rw [Matching.assign_eq] at gathers ⊢
  refine ⟨matching, ⟨gathers.value, ?_, gathers.effects⟩, ?_⟩
  · rw [gathers.steps, List.append_nil, unmountAll_eq_flatMap]
  · have length := matching.length_eq
    rw [List.length_map] at length
    simp only [gathers.value, List.length_map, length_outcomes, List.length_zip, length,
      Nat.min_self]

/-- Child matching loses and duplicates nothing, be it for the fragments of the head or for the
    children of an element that is kept. Each new node becomes one tree, in order. Each old tree is
    taken by at most one node, and one that is not taken is unmounted once, after all nodes. A node
    with a key takes only an old tree with this key, and one without takes only the old tree at its
    own position, if that has no key either. When the old keys are distinct, the first node with a
    key takes the old tree that has it. -/
theorem children_taken_over :
    (∀ (site : Site) (old : List Mounted) (spines : List Spine) (supply : Supply),
      ∃ taken, TakesOver old (spines.map fun spine => (site, spine)) supply taken
        (reconcileAll site old spines supply)) ∧
    ∀ (site : Site) (node : MountedElement) (old : List Mounted) (tag : String)
      (children : List (UInt32 × Spine)) (attributes : List Attribute) (supply : Supply),
      node.tag = tag → ∃ taken inner, TakesOver old (childNodes site children) supply taken inner ∧
        let new := rendered site tag attributes node.handle
        let changed := node.props.ref? ≠ new.props.ref?
        reconcile site (.element node old) (.element tag children attributes) supply =
          ⟨.element new inner.value,
            detachments (if changed then node.props.ref? else none) ++
              .syncHandle node.handle new.props :: inner.steps,
            inner.effects ++ attachments (if changed then new.props.ref? else none) node.handle,
            inner.supply⟩ := by
  constructor
  · intro site old spines supply
    have nodeKeys : (spines.map fun spine => (site, spine)).map nodeKey =
        spines.map (Spine.keyAt site.key) := by simp [nodeKey, Function.comp_def]
    refine ⟨Matching.taken (old.map key) ((spines.map fun spine => (site, spine)).map nodeKey), ?_⟩
    rw [reconcileAll_apply, ← nodeKeys]
    refine TakesOver.of_gathers ?_
    rw [List.zip_map_right]
    exact (reconcileEach_gathers site).each _ supply
  · intro site node old tag children attributes supply kept
    have nodeKeys : (childNodes site children).map nodeKey = childKeys children := by
      simp [childNodes, childKeys, nodeKey, Function.comp_def, Site.child]
    refine ⟨_, _, TakesOver.of_gathers (reconcileChildren_gathers site ?_ supply), ?_⟩
    · simp [childNodes]
    · rw [reconcile_element site kept, nodeKeys]

/-- Two rows change places, and a second row with the key of one of them is new. -/
theorem rows_change_places :
    let row (index : UInt32) : Mounted := .element ⟨"li", some index, [], index.toNat, none⟩ []
    let item (index : UInt32) : UInt32 × Spine := (index, .element "li" [] [])
    let list : MountedElement := ⟨"ul", none, [], 0, none⟩
    let new := [item 2, item 1, item 2]
    list.tag = "ul" ∧ ∃ taken inner,
      TakesOver [row 1, row 2] (childNodes (.root 0) new) ⟨3, 0⟩ taken inner ∧
      (taken[0]? = some (some 1) ∧ taken[1]? = some (some 0) ∧ ∀ j, taken[2]? ≠ some (some j)) ∧
      (reconcile (.root 0) (.element list [row 1, row 2]) (.element "ul" new []) ⟨3, 0⟩).steps =
        .syncHandle 0 [] :: inner.steps := by
  intro row item list new
  obtain ⟨taken, inner, takesOver, same⟩ :=
    children_taken_over.2 (.root 0) list [row 1, row 2] "ul" new [] ⟨3, 0⟩ rfl
  have keyed := takesOver.matching.keyed (by decide)
  refine ⟨rfl, taken, inner, takesOver, ⟨keyed 0 1 2 rfl (by decide) rfl,
    keyed 1 0 1 rfl (by decide) rfl, fun j takes => ?_⟩, ?_⟩
  · have again := (takesOver.matching.exact 2 j).mp takes
    obtain ⟨key, isKey, -, how⟩ := again
    obtain rfl : some 2 = key := Option.some.inj isKey
    exact how.1 0 (by decide) rfl
  · rw [same]
    rfl

end RemoteView.Mounted
