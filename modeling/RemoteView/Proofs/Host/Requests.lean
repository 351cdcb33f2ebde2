import Mathlib
import RemoteView.Proofs.Host.Listening
import RemoteView.Proofs.Path

/-! # Asking for callbacks

A rendering context is asked for the listener of a function at a path, or for the ref of a path,
again and again. The first request builds the callback, and whoever asks later gets that one. The
same holds when callbacks are kept in tables by the text of their path: the text of a path stands
for no other path.
-/

namespace RemoteView

/-- Which callback of a context is meant: the listener of a function at a path, or the ref of a
    path. -/
inductive CallbackKey where
  | listener (path : Path) (fid : FunctionId)
  | ref (path : Path)
  deriving DecidableEq

namespace CallbackKey

/-- The path and the function of a listener. -/
def pair? : CallbackKey → Option (Path × FunctionId)
  | .listener path fid => some (path, fid)
  | .ref _ => none

/-- The path of a ref. -/
def refPath? : CallbackKey → Option Path
  | .listener _ _ => none
  | .ref path => some path

end CallbackKey

/-- Someone asks for a callback and says what it is to do in case that it has to be built. -/
inductive CallbackRequest where
  | listener (path : Path) (fid : FunctionId) (behaviour : ListenerBehaviour)
  | ref (path : Path) (declared : RefAttribute)

namespace CallbackRequest

def key : CallbackRequest → CallbackKey
  | .listener path fid _ => .listener path fid
  | .ref path _ => .ref path

/-- What the callback does if this request builds it. -/
def made : CallbackRequest → ListenerBehaviour ⊕ RefAttribute
  | .listener _ _ behaviour => .inl behaviour
  | .ref _ declared => .inr declared

theorem getElem?_idxOf (requests : List CallbackRequest) (key : CallbackKey) :
    requests[(requests.map CallbackRequest.key).idxOf key]? =
      requests.find? fun one => one.key = key := by
  induction requests with
  | nil => rfl
  | cons request rest ih =>
      by_cases here : request.key = key
      · simp [here]
      · simp [List.idxOf_cons_ne, here, ih]

end CallbackRequest

theorem card_toFinset_concat {α : Type} [DecidableEq α] (items : List α) (item : α) :
    (items ++ [item]).toFinset.card =
      if item ∈ items then items.toFinset.card else items.toFinset.card + 1 := by
  have grown : (items ++ [item]).toFinset = insert item items.toFinset := by
    ext other
    simp
  rw [grown, Finset.card_insert_eq_ite]
  simp only [List.mem_toFinset]

theorem CallbackKey.card_toFinset (keys : List CallbackKey) : keys.toFinset.card =
    (keys.filterMap pair?).toFinset.card + (keys.filterMap refPath?).toFinset.card := by
  have mem_pair (path : Path) (fid : FunctionId) (keys : List CallbackKey) :
      (path, fid) ∈ keys.filterMap pair? ↔ .listener path fid ∈ keys := by
    rw [List.mem_filterMap]
    constructor
    · rintro ⟨key, among, found⟩
      cases key with
      | listener => obtain ⟨rfl, rfl⟩ := Prod.mk.inj (Option.some.inj found); exact among
      | ref => cases found
    · exact fun among => ⟨_, among, rfl⟩
  have mem_refPath (path : Path) (keys : List CallbackKey) :
      path ∈ keys.filterMap refPath? ↔ .ref path ∈ keys := by
    rw [List.mem_filterMap]
    constructor
    · rintro ⟨key, among, found⟩
      cases key with
      | listener => cases found
      | ref => obtain rfl := Option.some.inj found; exact among
    · exact fun among => ⟨_, among, rfl⟩
  induction keys using List.reverseRecOn with
  | nil => rfl
  | append_singleton keys key ih =>
      rw [card_toFinset_concat, List.filterMap_append, List.filterMap_append, ih]
      cases key with
      | listener path fid =>
          have pairs : [CallbackKey.listener path fid].filterMap pair? = [(path, fid)] := rfl
          have refs : [CallbackKey.listener path fid].filterMap refPath? = [] := rfl
          rw [pairs, refs, List.append_nil, card_toFinset_concat]
          simp only [mem_pair]
          split <;> omega
      | ref path =>
          have pairs : [CallbackKey.ref path].filterMap pair? = [] := rfl
          have refs : [CallbackKey.ref path].filterMap refPath? = [path] := rfl
          rw [pairs, refs, List.append_nil, card_toFinset_concat]
          simp only [mem_refPath]
          split <;> omega

/-! ## One context -/

namespace RenderContext

/-- The context after a request. -/
def serve (context : RenderContext) : CallbackRequest → RenderContext
  | .listener path fid behaviour => context.listener path fid behaviour
  | .ref path declared => context.ref path declared

/-- What the callback under a key does, if it was built. -/
def stored? (context : RenderContext) : CallbackKey → Option (ListenerBehaviour ⊕ RefAttribute)
  | .listener path fid => (Assoc.get? (path, fid) context.listeners).map .inl
  | .ref path => (Assoc.get? path context.refs).map .inr

theorem stored?_serve (context : RenderContext) (request : CallbackRequest) (key : CallbackKey) :
    (context.serve request).stored? key =
      (context.stored? key).or (if request.key = key then some request.made else none) := by
  cases request with
  | listener path fid behaviour =>
      cases key with
      | listener place name =>
          simp only [serve, listener, stored?, Assoc.get?_insertNew, CallbackRequest.key,
            CallbackRequest.made, CallbackKey.listener.injEq, Prod.mk.injEq]
          by_cases same : place = path ∧ name = fid
          · obtain ⟨rfl, rfl⟩ := same
            cases Assoc.get? (place, name) context.listeners <;> simp
          · have other : ¬ (path = place ∧ fid = name) := fun both =>
              same ⟨both.1.symm, both.2.symm⟩
            rw [if_neg same, if_neg other, Option.or_none]
      | ref place => exact (Option.or_none ..).symm
  | ref path declared =>
      cases key with
      | listener place name => exact (Option.or_none ..).symm
      | ref place =>
          simp only [serve, ref, stored?, Assoc.get?_insertNew, CallbackRequest.key,
            CallbackRequest.made, CallbackKey.ref.injEq]
          by_cases same : place = path
          · subst same
            cases Assoc.get? place context.refs <;> simp
          · rw [if_neg same, if_neg (Ne.symm same), Option.or_none]

theorem serve_of_stored {context : RenderContext} {request : CallbackRequest}
    (there : context.stored? request.key ≠ none) : context.serve request = context := by
  cases request with
  | listener path fid behaviour =>
      have contained : Assoc.contains (path, fid) context.listeners := by
        simpa [stored?, CallbackRequest.key, Assoc.contains, Option.isSome_iff_ne_none] using there
      rw [serve, listener, Assoc.insertNew_of_contains _ contained]
  | ref path declared =>
      have contained : Assoc.contains path context.refs := by
        simpa [stored?, CallbackRequest.key, Assoc.contains, Option.isSome_iff_ne_none] using there
      rw [serve, ref, Assoc.insertNew_of_contains _ contained]

theorem declaredCount_serve {context : RenderContext} {request : CallbackRequest}
    (absent : context.stored? request.key = none) :
    (context.serve request).declaredCount = context.declaredCount + 1 := by
  cases request with
  | listener path fid behaviour =>
      have new : Assoc.get? (path, fid) context.listeners = none := Option.map_eq_none_iff.mp absent
      simp [serve, listener, declaredCount, Assoc.insertNew, Assoc.contains, new]
      omega
  | ref path declared =>
      have new : Assoc.get? path context.refs = none := Option.map_eq_none_iff.mp absent
      simp [serve, ref, declaredCount, Assoc.insertNew, Assoc.contains, new]
      omega

/-- The context after requests, when nothing was there before. -/
def serveAll (requests : List CallbackRequest) : RenderContext := requests.foldl serve .empty

theorem serveAll_concat (requests : List CallbackRequest) (request : CallbackRequest) :
    serveAll (requests ++ [request]) = (serveAll requests).serve request :=
  List.foldl_concat ..

/-- Under each key is what the first request for it has built. -/
theorem stored?_serveAll (requests : List CallbackRequest) (key : CallbackKey) :
    (serveAll requests).stored? key =
      (requests.find? fun one => one.key = key).map CallbackRequest.made := by
  induction requests using List.reverseRecOn with
  | nil => cases key <;> rfl
  | append_singleton requests request ih =>
      rw [serveAll_concat, stored?_serve, ih, List.find?_append, List.find?_singleton]
      cases requests.find? fun one => one.key = key with
      | some first => rfl
      | none => by_cases same : request.key = key <;> simp [same]

theorem stored?_serveAll_eq_none {requests : List CallbackRequest} {key : CallbackKey} :
    (serveAll requests).stored? key = none ↔ key ∉ requests.map CallbackRequest.key := by
  simp [stored?_serveAll]

theorem declaredCount_serveAll (requests : List CallbackRequest) :
    (serveAll requests).declaredCount = (requests.map CallbackRequest.key).toFinset.card := by
  induction requests using List.reverseRecOn with
  | nil => rfl
  | append_singleton requests request ih =>
      rw [serveAll_concat, List.map_append, List.map_singleton, card_toFinset_concat, ← ih]
      by_cases known : request.key ∈ requests.map CallbackRequest.key
      · rw [if_pos known, serve_of_stored fun absent => stored?_serveAll_eq_none.mp absent known]
      · rw [if_neg known, declaredCount_serve (stored?_serveAll_eq_none.mpr known)]

end RenderContext

/-! ## Tables by the text of a path -/

/-- Callbacks in tables: for the text of each path a table of its listeners by function, and one of
    refs. Each callback is known by the number of the request that has built it. -/
structure CallbackTables where
  listeners : Assoc String (Assoc FunctionId Nat)
  refs : Assoc String Nat

namespace CallbackTables

def empty : CallbackTables := ⟨[], []⟩

/-- The callback under a key. -/
def find? (tables : CallbackTables) : CallbackKey → Option Nat
  | .listener path fid => (Assoc.get? path.key tables.listeners).bind (Assoc.get? fid)
  | .ref path => Assoc.get? path.key tables.refs

/-- Keep a callback under a key. -/
def add (number : Nat) (tables : CallbackTables) : CallbackKey → CallbackTables
  | .listener path fid =>
      let atPath := (Assoc.get? path.key tables.listeners).getD []
      { tables with
        listeners := Assoc.insert path.key (Assoc.insert fid number atPath) tables.listeners }
  | .ref path => { tables with refs := Assoc.insert path.key number tables.refs }

/-- The request with a number gets the callback under its key, and builds it if there is none. -/
def ask (number : Nat) (key : CallbackKey) (tables : CallbackTables) : Nat × CallbackTables :=
  match tables.find? key with
  | some built => (built, tables)
  | none => (number, tables.add number key)

/-- Requests one after another, with numbers from a first one on: the callbacks that they get. -/
def askAll (first : Nat) : List CallbackKey → CallbackTables → List Nat × CallbackTables
  | [], tables => ([], tables)
  | key :: rest, tables =>
      let (built, next) := tables.ask first key
      let (others, last) := askAll (first + 1) rest next
      (built :: others, last)

/-- How many callbacks there are. -/
def size (tables : CallbackTables) : Nat :=
  (tables.listeners.map fun table => table.2.length).sum + tables.refs.length

theorem find?_add (number : Nat) (tables : CallbackTables) (key other : CallbackKey) :
    (tables.add number key).find? other =
      if other = key then some number else tables.find? other := by
  cases key with
  | listener path fid =>
      cases other with
      | listener place name =>
          simp only [add, find?, Assoc.get?_insert, CallbackKey.listener.injEq]
          by_cases here : place = path
          · subst here
            rw [if_pos rfl, Option.bind_some, Assoc.get?_insert]
            by_cases same : name = fid
            · simp [same]
            · cases Assoc.get? place.key tables.listeners <;> simp [same]
          · rw [if_neg fun text => here (Path.eq_of_key_eq text), if_neg fun both => here both.1]
      | ref place => rfl
  | ref path =>
      cases other with
      | listener place name => rfl
      | ref place =>
          simp only [add, find?, Assoc.get?_insert, CallbackKey.ref.injEq]
          by_cases here : place = path
          · rw [here, if_pos rfl, if_pos rfl]
          · rw [if_neg fun text => here (Path.eq_of_key_eq text), if_neg here]

theorem sum_length_insert (path : String) (functions : Assoc FunctionId Nat)
    (tables : Assoc String (Assoc FunctionId Nat)) :
    ((Assoc.insert path functions tables).map fun table => table.2.length).sum +
        ((Assoc.get? path tables).getD []).length =
      (tables.map fun table => table.2.length).sum + functions.length := by
  induction tables with
  | nil => simp [Assoc.insert]
  | cons table rest ih =>
      obtain ⟨first, inner⟩ := table
      by_cases here : first = path
      · simp [Assoc.insert, Assoc.get?, here]
        omega
      · simp [Assoc.insert, Assoc.get?, here]
        omega

theorem size_add (number : Nat) {tables : CallbackTables} {key : CallbackKey}
    (absent : tables.find? key = none) : (tables.add number key).size = tables.size + 1 := by
  cases key with
  | listener path fid =>
      have new : Assoc.get? fid ((Assoc.get? path.key tables.listeners).getD []) = none := by
        rw [find?] at absent
        cases stored : Assoc.get? path.key tables.listeners with
        | none => rfl
        | some functions => simpa [stored] using absent
      have counted := sum_length_insert path.key
        (Assoc.insert fid number ((Assoc.get? path.key tables.listeners).getD [])) tables.listeners
      rw [Assoc.insert_of_absent new, List.length_append, List.length_singleton] at counted
      simp only [size, add]
      rw [Assoc.insert_of_absent new]
      omega
  | ref path =>
      rw [find?] at absent
      simp only [size, add, Assoc.insert_of_absent absent, List.length_append,
        List.length_singleton]
      omega

/-- After requests for these keys: under each key is the callback that the first request for it has
    built, and nothing else is there. -/
structure Knows (tables : CallbackTables) (keys : List CallbackKey) : Prop where
  find : ∀ key, tables.find? key = if key ∈ keys then some (keys.idxOf key) else none
  size : tables.size = keys.toFinset.card

theorem knows_empty : empty.Knows [] where
  find key := by cases key <;> rfl
  size := rfl

/-- What is found is the number of the first request for the key. -/
theorem Knows.bind_getElem? {tables : CallbackTables} {requests : List CallbackRequest}
    (knows : tables.Knows (requests.map CallbackRequest.key)) (key : CallbackKey) :
    ((tables.find? key).bind fun number => requests[number]?) =
      requests.find? fun one => one.key = key := by
  rw [knows.find]
  split
  · exact CallbackRequest.getElem?_idxOf requests key
  · rename_i never
    symm
    simpa using never

theorem Knows.ask {tables : CallbackTables} {keys : List CallbackKey} (knows : tables.Knows keys)
    (key : CallbackKey) :
    (tables.ask keys.length key).1 = (keys ++ [key]).idxOf key ∧
      (tables.ask keys.length key).2.Knows (keys ++ [key]) := by
  have found := knows.find key
  by_cases known : key ∈ keys
  · rw [if_pos known] at found
    rw [CallbackTables.ask, found, List.idxOf_append_of_mem known]
    refine ⟨rfl, fun other => ?_, ?_⟩
    · rw [knows.find other]
      by_cases before : other ∈ keys
      · rw [if_pos before, if_pos (List.mem_append_left _ before), List.idxOf_append_of_mem before]
      · have never : other ∉ keys ++ [key] := by
          rw [List.mem_append, List.mem_singleton]
          rintro (old | rfl)
          · exact before old
          · exact before known
        rw [if_neg before, if_neg never]
    · rw [card_toFinset_concat, if_pos known, knows.size]
  · rw [if_neg known] at found
    have own : (keys ++ [key]).idxOf key = keys.length := by
      rw [List.idxOf_append_of_notMem known, List.idxOf_cons_self, Nat.add_zero]
    rw [CallbackTables.ask, found, own]
    refine ⟨rfl, fun other => ?_, ?_⟩
    · rw [find?_add, knows.find other]
      by_cases same : other = key
      · subst same
        rw [if_pos rfl, if_pos (by simp), own]
      · rw [if_neg same]
        by_cases before : other ∈ keys
        · rw [if_pos before, if_pos (List.mem_append_left _ before),
            List.idxOf_append_of_mem before]
        · rw [if_neg before, if_neg (by simp [before, same])]
    · rw [size_add _ found, card_toFinset_concat, if_neg known, knows.size]

theorem Knows.askAll {tables : CallbackTables} {keys : List CallbackKey} (knows : tables.Knows keys)
    (rest : List CallbackKey) :
    (CallbackTables.askAll keys.length rest tables).1 = rest.map (keys ++ rest).idxOf ∧
      (CallbackTables.askAll keys.length rest tables).2.Knows (keys ++ rest) := by
  induction rest generalizing tables keys with
  | nil => exact ⟨rfl, by simpa [CallbackTables.askAll] using knows⟩
  | cons key rest ih =>
      obtain ⟨built, next⟩ := knows.ask key
      obtain ⟨others, last⟩ := ih next
      rw [List.length_append, List.length_singleton, List.append_assoc] at others last
      refine ⟨?_, last⟩
      have among : key ∈ keys ++ [key] := by simp
      rw [← List.idxOf_append_of_mem among, List.append_assoc] at built
      rw [CallbackTables.askAll, List.map_cons]
      simp only [built, others]
      rfl

end CallbackTables

/-- Whatever callbacks a context is asked for, each request gets the one that the first request with
    the same key has built, and only such a first request builds one. Requests with different keys,
    be it a listener and a ref or a number and a name that looks like it, get different ones. There
    are as many callbacks as pairs of a path and a function and paths of refs that were asked for.
    All this is so too when callbacks are found by the text of their path. -/
theorem RenderContext.callbacks_built_once (requests : List CallbackRequest) :
    let keys := requests.map CallbackRequest.key
    let context := serveAll requests
    let byText := CallbackTables.askAll 0 keys .empty
    byText.1 = keys.map keys.idxOf ∧
    (∀ one ∈ keys, ∀ other ∈ keys, keys.idxOf one = keys.idxOf other ↔ one = other) ∧
    (∀ path number, CallbackKey.listener path (.number number) ≠
      .listener path (.name (FunctionId.number number).display)) ∧
    (∀ key, context.stored? key =
      (requests.find? fun one => one.key = key).map CallbackRequest.made) ∧
    (∀ key, context.stored? key =
      ((byText.2.find? key).bind fun number => requests[number]?).map CallbackRequest.made) ∧
    (∀ request, context.serve request = context ↔ request.key ∈ keys) ∧
    context.declaredCount = (keys.filterMap CallbackKey.pair?).toFinset.card +
      (keys.filterMap CallbackKey.refPath?).toFinset.card ∧
    byText.2.size = context.declaredCount := by
  intro keys context byText
  have knows : byText.2.Knows keys := (CallbackTables.knows_empty.askAll keys).2
  refine ⟨(CallbackTables.knows_empty.askAll keys).1,
    fun one among other _ => List.idxOf_inj among, fun path number => by simp,
    stored?_serveAll requests, fun key => ?_, fun request => ⟨fun same => ?_, fun known => ?_⟩,
    ?_, ?_⟩
  · rw [stored?_serveAll]
    exact congrArg _ (knows.bind_getElem? key).symm
  · by_contra new
    have grown := declaredCount_serve (stored?_serveAll_eq_none.mpr new)
    exact Nat.succ_ne_self _ (grown.symm.trans (congrArg declaredCount same))
  · exact serve_of_stored fun absent => stored?_serveAll_eq_none.mp absent known
  · rw [declaredCount_serveAll, CallbackKey.card_toFinset]
  · rw [declaredCount_serveAll]
    exact knows.size

/-- A path of two digits, a path of one index with the same digits, a name that looks like a number
    and a ref at the path of a listener: none of them gets the callback of another. -/
example : (CallbackTables.askAll 0
    [.listener ⟨[1, 1]⟩ (.number 3), .listener ⟨[11]⟩ (.number 3),
      .listener ⟨[1, 1]⟩ (.name "3"), .ref ⟨[1, 1]⟩, .listener ⟨[1, 1]⟩ (.number 3)]
    .empty).1 = [0, 1, 2, 3, 0] := by
  cbv

end RemoteView
