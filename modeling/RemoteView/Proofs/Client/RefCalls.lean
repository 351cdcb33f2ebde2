import Mathlib
import RemoteView.Proofs.Client.Lifecycle
import RemoteView.Proofs.Client.StableKeys
import RemoteView.Proofs.Mounted.Carriers

/-! # Calls of refs

A ref is called when an element that has it comes or goes. As long as nothing is rendered in the head
and siblings have distinct indices, the calls take turns: a ref is attached, detached, attached again
and so on, and it is attached exactly while an element of the body has it, to this element.
-/

namespace RemoteView

/-- A call of a ref. -/
inductive RefCall where
  | attach (handle : ObjectId)
  | detach
  deriving DecidableEq, Repr

namespace RefCall

/-- The handle that a ref has after a call. -/
def handle? : RefCall → Option ObjectId
  | .attach handle => some handle
  | .detach => none

/-- The handle that a ref has after calls. -/
def lastHandle? (calls : List RefCall) : Option ObjectId := calls.getLast?.bind handle?

/-- Calls take turns: the first one attaches, and each one detaches exactly when the one before it
    attached. -/
structure Alternate (calls : List RefCall) : Prop where
  first : calls.head? ≠ some .detach
  next : calls.IsChain fun one next => next = .detach ↔ one ≠ .detach

end RefCall

/-- The ref that a deed calls, with the call. -/
def Deed.refCall? : Deed → Option (RefId × RefCall)
  | .step (.detachRef id) => some (id, .detach)
  | .effect (.attachRef id handle) => some (id, .attach handle)
  | _ => none

/-- The calls of refs that deeds make. -/
def Deed.refCalls (deeds : List Deed) : List (RefId × RefCall) := deeds.filterMap Deed.refCall?

/-- The calls of one ref that deeds make. -/
def Deed.callsOf (id : RefId) (deeds : List Deed) : List RefCall :=
  ((Deed.refCalls deeds).filter fun called => called.1 = id).map Prod.snd

/-- Does a call render in the body alone, and nothing in which siblings share an index? -/
def RenderCall.IsOrderly (client : Client) : RenderCall → Prop
  | .body _ spine => spine.Distinct
  | .head _ _ => False
  | .update id => ∀ state ∈ client.host.instances.get? id, state.payload.content.Distinct
  | .loading => True

instance (client : Client) : (call : RenderCall) → Decidable (call.IsOrderly client)
  | .body _ spine => inferInstanceAs (Decidable spine.Distinct)
  | .head _ _ => inferInstanceAs (Decidable False)
  | .update id => inferInstanceAs (Decidable (∀ state ∈ client.host.instances.get? id,
      state.payload.content.Distinct))
  | .loading => inferInstanceAs (Decidable True)

theorem RenderCall.IsOrderly.distinct {client : Client} {call : RenderCall}
    (orderly : call.IsOrderly client) : call.Distinct client := by
  cases call with
  | body session spine => exact orderly
  | head session spines => trivial
  | update id => exact orderly
  | loading => trivial

namespace Client

/-- Clients that can be reached when nothing is rendered in the head and siblings never share an
    index, with all deeds of their renderer so far. -/
inductive OrderlyRun : List Deed → Client → Prop
  | new (location : String) (policy : ReconnectPolicy) : OrderlyRun [] (Client.new location policy)
  | perform {past : List Deed} {client : Client} (run : OrderlyRun past client) (action : Action)
      (orderly : ∀ called ∈ client.call? action, called.2.IsOrderly called.1) :
      OrderlyRun (past ++ client.actionDeeds action) (client.perform action)

theorem OrderlyRun.compute {past : List Deed} {client : Client} (run : OrderlyRun past client)
    (action : Action)
    (orderly : (client.call? action).all fun called => called.2.IsOrderly called.1) :
    OrderlyRun (past ++ client.actionDeeds action) (client.perform action) :=
  run.perform action fun called among =>
    of_decide_eq_true ((Option.all_eq_true _ _).mp orderly called among)

theorem OrderlyRun.run {past : List Deed} {client : Client} (run : OrderlyRun past client) :
    Run past client := by
  induction run with
  | new location policy => exact .new location policy
  | perform _ action _ ih => exact ih.perform action

/-- What is true of the calls of refs. -/
structure RefsTakeTurns (past : List Deed) (client : Client) : Prop where
  alternate : ∀ id, RefCall.Alternate (Deed.callsOf id past)
  /-- The last call of a ref attached it exactly when an element of the body has it. -/
  attached_iff : ∀ id, (∃ handle, (Deed.callsOf id past).getLast? = some (.attach handle)) ↔
    ∃ node ∈ client.body.elements, node.props.ref? = some id
  /-- Then one element has it, and the ref was attached to this element. -/
  carrier : ∀ id handle, (Deed.callsOf id past).getLast? = some (.attach handle) →
    ∃ node, client.body.carriers id = [node] ∧ node.handle = handle
  /-- Whatever happens next, no ref is detached after one was attached. -/
  detachesFirst : ∀ action, (Deed.refCalls (client.actionDeeds action)).Pairwise
    fun one later => later.2 = .detach → one.2 = .detach

end Client

/-! ## Taking turns -/

namespace RefCall

variable {calls : List RefCall}

theorem lastHandle?_eq_some {handle : ObjectId} :
    lastHandle? calls = some handle ↔ calls.getLast? = some (.attach handle) := by
  rw [lastHandle?]
  constructor
  · intro last
    obtain ⟨call, isLast, handled⟩ := Option.bind_eq_some_iff.mp last
    cases call with
    | attach other =>
        obtain rfl : other = handle := Option.some.inj handled
        exact isLast
    | detach => cases handled
  · intro last
    rw [last]
    rfl

namespace Alternate

theorem nil : Alternate [] where
  first := by simp
  next := .nil

theorem concat (alternate : Alternate calls) {call : RefCall}
    (turn : call = .detach ↔ (lastHandle? calls).isSome) : Alternate (calls ++ [call]) where
  first := by
    cases calls with
    | nil =>
        intro detached
        cases turn.mp (Option.some.inj detached)
    | cons one rest => exact alternate.first
  next := by
    refine List.isChain_append.mpr ⟨alternate.next, List.isChain_singleton call, ?_⟩
    intro one last next only
    obtain rfl : call = next := Option.some.inj only
    rw [turn, lastHandle?, Option.mem_def.mp last, Option.bind_some]
    cases one <;> simp [handle?]

/-- A ref is detached from what has it and attached to what has it next. -/
theorem exchange (alternate : Alternate calls) {before after : List ObjectId}
    (held : before = (lastHandle? calls).toList) (short : after.length ≤ 1) :
    let now := calls ++ (before.map (fun _ => .detach) ++ after.map .attach)
    Alternate now ∧ after = (lastHandle? now).toList := by
  obtain ⟨freed, nothing⟩ : Alternate (calls ++ before.map fun _ => .detach) ∧
      lastHandle? (calls ++ before.map fun _ => .detach) = none := by
    cases last : lastHandle? calls with
    | none =>
        rw [last] at held
        rw [held, Option.toList_none, List.map_nil, List.append_nil]
        exact ⟨alternate, last⟩
    | some handle =>
        rw [last] at held
        rw [held]
        refine ⟨alternate.concat (by simp [last]), ?_⟩
        simp [lastHandle?, handle?]
  intro now
  have eq : now = calls ++ before.map (fun _ => .detach) ++ after.map .attach :=
    (List.append_assoc ..).symm
  rw [eq]
  match after, short with
  | [], _ =>
      rw [List.map_nil, List.append_nil, nothing]
      exact ⟨freed, rfl⟩
  | [handle], _ =>
      have turn : RefCall.attach handle = .detach ↔
          (lastHandle? (calls ++ before.map fun _ => .detach)).isSome := by
        rw [nothing]
        simp
      refine ⟨freed.concat turn, ?_⟩
      simp [lastHandle?, handle?]

end Alternate

end RefCall

/-! ## What deeds call -/

namespace Deed

theorem callsOf_append (id : RefId) (first second : List Deed) :
    callsOf id (first ++ second) = callsOf id first ++ callsOf id second := by
  simp only [callsOf, refCalls, List.filterMap_append, List.filter_append, List.map_append]

theorem refCalls_deeds {α : Type} (outcome : Outcome α) : refCalls outcome.deeds =
    (Step.detaches outcome.steps).map (fun id => (id, .detach)) ++
      (Effect.attaches outcome.effects).map fun one => (one.1, .attach one.2) := by
  rw [refCalls, Outcome.deeds, List.filterMap_append, List.filterMap_map, List.filterMap_map,
    Step.detaches, Effect.attaches, List.map_filterMap, List.map_filterMap]
  refine congrArg₂ _ (List.filterMap_congr fun step _ => ?_) (List.filterMap_congr fun effect _ => ?_)
  · cases step <;> rfl
  · cases effect <;> rfl

theorem refCalls_render (call : RenderCall) (client : Client) : refCalls (client.deeds call) =
    (Step.detaches (Deed.steps (client.deeds call))).map (fun id => (id, .detach)) ++
      (Effect.attaches (Deed.effects (client.deeds call))).map fun one =>
        (one.1, .attach one.2) := by
  conv_lhs => rw [Client.deeds_eq call client client.host.supply]
  exact refCalls_deeds _

end Deed

section ShortLists

variable {α : Type} {before after gone new : List α}

theorem eq_of_perm_of_short (same : before.Perm after) (short : before.length ≤ 1) :
    before = after := by
  match before, short with
  | [], _ => exact same.nil_eq
  | [one], _ => exact (List.perm_singleton.mp same.symm).symm

/-- Where there is one at most, before and afterwards, either nothing comes or goes, or everything
    does. -/
theorem all_or_nothing (balance : (after ++ gone).Perm (before ++ new))
    (few : gone.length ≤ before.length) (left : gone ⊆ before) (short : before.length ≤ 1)
    (shortAfter : after.length ≤ 1) :
    gone = [] ∧ new = [] ∧ after = before ∨ gone = before ∧ new = after := by
  have lengths := balance.length_eq
  rw [List.length_append, List.length_append] at lengths
  match before, gone with
  | [], [] =>
      rw [List.append_nil, List.nil_append] at balance
      exact .inr ⟨rfl, (eq_of_perm_of_short balance shortAfter).symm⟩
  | [], _ :: _ => cases left List.mem_cons_self
  | [one], [] =>
      rw [List.length_singleton, List.length_nil] at lengths
      obtain rfl : new = [] := List.eq_nil_of_length_eq_zero (by omega)
      rw [List.append_nil, List.append_nil] at balance
      exact .inl ⟨rfl, rfl, eq_of_perm_of_short balance shortAfter⟩
  | [one], [other] =>
      obtain rfl := List.mem_singleton.mp (left List.mem_cons_self)
      have rest := (List.perm_append_right_iff _).mp (balance.trans List.perm_append_comm)
      exact .inr ⟨rfl, (eq_of_perm_of_short rest shortAfter).symm⟩
  | [one], _ :: _ :: _ =>
      rw [List.length_cons, List.length_cons, List.length_singleton] at few
      omega
  | _ :: _ :: _, _ =>
      rw [List.length_cons, List.length_cons] at short
      omega

end ShortLists

namespace RefTurnover

variable {before after gone : List Attachment} {steps : List Step} {effects : List Effect}

/-- Where refs are distinct, before and afterwards, each of them is left alone, or it is detached
    from what had it and attached to what has it then. -/
theorem handlesIn (turnover : RefTurnover before after gone steps effects)
    (distinct : (before.map Prod.fst).Nodup) (distinctAfter : (after.map Prod.fst).Nodup)
    (id : RefId) :
    id.handlesIn gone = [] ∧ id.handlesIn (Effect.attaches effects) = [] ∧
        id.handlesIn after = id.handlesIn before ∨
      id.handlesIn gone = id.handlesIn before ∧
        id.handlesIn (Effect.attaches effects) = id.handlesIn after := by
  have balance : (id.handlesIn (after ++ gone)).Perm
      (id.handlesIn (before ++ Effect.attaches effects)) := RefId.handlesIn_perm turnover.perm
  rw [RefId.handlesIn_append, RefId.handlesIn_append] at balance
  have few : (id.handlesIn gone).length ≤ (id.handlesIn before).length := by
    rw [RefId.handlesIn, RefId.handlesIn, List.length_map, List.length_map]
    exact (turnover.sub.filter _).length_le
  have left : id.handlesIn gone ⊆ id.handlesIn before :=
    List.map_subset _ (turnover.sub.filter _).subset
  exact all_or_nothing balance few left (RefId.length_handlesIn_le distinct)
    (RefId.length_handlesIn_le distinctAfter)

end RefTurnover

/-! ## Orderly runs -/

namespace Client

variable {past : List Deed} {client : Client}

theorem head_render (empty : client.head = []) {call : RenderCall}
    (orderly : call.IsOrderly client) : (client.render call).head = [] := by
  cases call with
  | body session spine => exact empty
  | head session spines => exact orderly.elim
  | update id =>
      unfold render
      simp only
      split
      · unfold renderInstance
        simp only
        split
        · exact empty
        · rw [empty]
          exact empty
      · exact empty
  | loading =>
      have emptied : (client.reconcileHead (.root 0) []).head = [] := by
        rw [reconcileHead, Mounted.reconcileAll_apply]
        rfl
      exact emptied

/-- In an orderly run siblings in the body can be told apart, and the head is empty. -/
theorem OrderlyRun.orderly (run : OrderlyRun past client) :
    client.body.Distinct ∧ client.head = [] := by
  have still {client after : Client} (orderly : client.body.Distinct ∧ client.head = [])
      (changes : Quietly client after) : after.body.Distinct ∧ after.head = [] := by
    refine changes.preserves (P := fun client => client.body.Distinct ∧ client.head = []) ?_ orderly
    rintro client after ⟨distinct, empty⟩ change
    cases change with
    | aside host body head =>
        rw [body, head]
        exact ⟨distinct, empty⟩
    | report | locate | openSession | dropSession | fire | setGlobal | setAttribute | addObject
    | setPayload | sync => exact ⟨distinct, empty⟩
    | changeInputs keeps => exact ⟨Mounted.distinct_mapNodes keeps distinct, empty⟩
  induction run with
  | new location policy => exact ⟨trivial, rfl⟩
  | @perform past client run action orderly ih =>
      have happens := happens_perform run.run.sound.settled.named action
      generalize client.call? action = called at happens orderly
      cases happens with
      | quietly changes => exact still ih changes
      | render before live afterwards =>
          have fits := orderly _ rfl
          obtain ⟨distinct, empty⟩ := still ih before
          have sound := before.preserves (fun _ _ => Sound.quiet) run.run.sound
          exact still ⟨distinct_render sound distinct fits.distinct, head_render empty fits⟩
            afterwards

theorem OrderlyRun.nodup_refs (run : OrderlyRun past client) :
    (client.refs.map Prod.fst).Nodup := by
  obtain ⟨distinct, empty⟩ := run.orderly
  obtain ⟨session, placed, faithful⟩ := run.run.carriesPaths.body
  rw [refs, empty, Mounted.childRefs, List.append_nil]
  exact Mounted.nodup_refs placed faithful distinct

/-- Whatever happens, a ref is left alone, or it is detached from what had it and attached to what
    has it then. -/
theorem callsOf_actionDeeds (sound : Sound client) {action : Action}
    (distinct : (client.refs.map Prod.fst).Nodup)
    (distinctAfter : ((client.perform action).refs.map Prod.fst).Nodup) (id : RefId) :
    Deed.callsOf id (client.actionDeeds action) = [] ∧
        id.handlesIn (client.perform action).refs = id.handlesIn client.refs ∨
      Deed.callsOf id (client.actionDeeds action) =
        (id.handlesIn client.refs).map (fun _ => .detach) ++
          (id.handlesIn (client.perform action).refs).map .attach := by
  have happens := happens_perform sound.settled.named action
  unfold actionDeeds
  generalize client.call? action = called at happens ⊢
  cases happens with
  | quietly changes =>
      rw [(trees_quietly changes).1]
      exact .inl ⟨rfl, rfl⟩
  | @render ready _ call before live afterwards =>
      rw [(trees_quietly afterwards).1] at distinctAfter ⊢
      rw [← (trees_quietly before).1] at distinct ⊢
      obtain ⟨gone, turned⟩ := refTurnover_render call ready
      have calls : Deed.callsOf id (ready.deeds call) =
          (id.handlesIn gone).map (fun _ => .detach) ++
            (id.handlesIn (Effect.attaches (Deed.effects (ready.deeds call)))).map .attach := by
        rw [Deed.callsOf, Deed.refCalls_render, turned.detached]
        simp [RefId.handlesIn, List.filter_map, Function.comp_def]
      rw [calls]
      rcases turned.handlesIn distinct distinctAfter id with ⟨none, nothing, same⟩ | ⟨all, every⟩
      · rw [none, nothing]
        exact .inl ⟨rfl, same⟩
      · rw [all, every]
        exact .inr rfl

/-- At any time the calls of a ref have taken turns, and the handle that they leave it with is that
    of the element that has it. -/
theorem OrderlyRun.callsOf (run : OrderlyRun past client) (id : RefId) :
    RefCall.Alternate (Deed.callsOf id past) ∧
      id.handlesIn client.refs = (RefCall.lastHandle? (Deed.callsOf id past)).toList := by
  induction run with
  | new location policy => exact ⟨.nil, rfl⟩
  | @perform past client run action orderly ih =>
      obtain ⟨alternate, held⟩ := ih
      have distinct := run.nodup_refs
      have distinctAfter := (run.perform action orderly).nodup_refs
      rw [Deed.callsOf_append]
      rcases callsOf_actionDeeds run.run.sound distinct distinctAfter id with ⟨none, same⟩ | calls
      · rw [none, List.append_nil, same]
        exact ⟨alternate, held⟩
      · rw [calls]
        exact alternate.exchange held (RefId.length_handlesIn_le distinctAfter)

theorem detaches_first (action : Action) (client : Client) :
    (Deed.refCalls (client.actionDeeds action)).Pairwise
      fun one later => later.2 = .detach → one.2 = .detach := by
  unfold actionDeeds
  split
  · rw [Deed.refCalls_render, List.pairwise_append]
    refine ⟨?_, ?_, ?_⟩
    · exact List.pairwise_map.mpr (List.pairwise_of_forall fun _ _ _ => rfl)
    · exact List.pairwise_map.mpr (List.pairwise_of_forall fun _ _ detached => by cases detached)
    · intro one first later second detached
      obtain ⟨id, -, rfl⟩ := List.mem_map.mp first
      rfl
  · exact .nil

/-- As long as nothing is rendered in the head and siblings have distinct indices, the calls of each
    ref take turns, and the ref is attached exactly while an element of the body has it, to this
    element. -/
theorem refs_take_turns (run : OrderlyRun past client) : RefsTakeTurns past client := by
  have empty := run.orderly.2
  have held (id : RefId) : (client.body.carriers id).map MountedElement.handle =
      (RefCall.lastHandle? (Deed.callsOf id past)).toList := by
    rw [← Mounted.handlesIn_refs, ← (run.callsOf id).2, refs, empty, Mounted.childRefs,
      List.append_nil]
  refine ⟨fun id => (run.callsOf id).1, fun id => ?_, fun id handle last => ?_,
    fun action => detaches_first action client⟩
  · simp only [← RefCall.lastHandle?_eq_some]
    constructor
    · rintro ⟨handle, last⟩
      have among : handle ∈ (client.body.carriers id).map MountedElement.handle := by
        rw [held, last]
        exact List.mem_singleton_self handle
      obtain ⟨node, carries, -⟩ := List.mem_map.mp among
      obtain ⟨inside, given⟩ := List.mem_filter.mp carries
      exact ⟨node, inside, of_decide_eq_true given⟩
    · rintro ⟨node, inside, given⟩
      have carries : node ∈ client.body.carriers id :=
        List.mem_filter.mpr ⟨inside, decide_eq_true given⟩
      have among : node.handle ∈ (RefCall.lastHandle? (Deed.callsOf id past)).toList := by
        rw [← held]
        exact List.mem_map_of_mem carries
      exact ⟨node.handle, Option.mem_toList.mp among⟩
  · have one := held id
    rw [RefCall.lastHandle?_eq_some.mpr last, Option.toList_some] at one
    exact List.map_eq_singleton_iff.mp one

/-- A paragraph loses its ref and gets it again, until the connection is closed. -/
theorem ref_comes_and_goes :
    let shown := history (showEach (([some "a"] :: [none] :: [[some "a"]]).map paragraphs) ++
      [.close]) (.new "/" .never)
    OrderlyRun shown.1 shown.2 ∧ RefsTakeTurns shown.1 shown.2 ∧
      Deed.callsOf ⟨.root 0, ⟨[0]⟩⟩ shown.1 = [.attach 2, .detach, .attach 2, .detach] := by
  intro shown
  have run : OrderlyRun shown.1 shown.2 := by
    refine .compute (.compute (.compute (.compute (.compute (.compute (.compute (.compute
      (.new "/" .never) .openConnection ?_) (.message _) ?_) .frame ?_) (.message _) ?_) .frame ?_)
        (.message _) ?_) .frame ?_) .close ?_
    all_goals cbv
  refine ⟨run, refs_take_turns run, ?_⟩
  unfold shown
  cbv

end Client

end RemoteView
