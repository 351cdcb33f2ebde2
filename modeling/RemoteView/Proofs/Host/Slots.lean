import RemoteView.Proofs.Host.Requests
import RemoteView.Proofs.Host.Table

/-! # A slot for each position

Callbacks and mounted components are found by the text of a path. Since different paths have
different texts, whatever is done at other positions, what is found at a position is what was put
there: its slot has a history of its own.
-/

namespace RemoteView

/-- The position that a callback belongs to. -/
def CallbackKey.path : CallbackKey → Path
  | .listener path _ => path
  | .ref path => path

/-- An instance enters the table of its session or leaves it. -/
inductive TableMove where
  | enter (identity : Instance)
  | leave (identity : Instance)

namespace TableMove

def identity : TableMove → Instance
  | enter identity => identity
  | leave identity => identity

/-- What becomes of a slot when an instance moves there: whoever enters takes it, and only who has
    it can leave it. -/
def slotAfter (slot : Option InstanceId) : TableMove → Option InstanceId
  | enter identity => some identity.id
  | leave identity => slot.filter (· ≠ identity.id)

end TableMove

namespace Host

/-- An instance moves in the table of its session. -/
def moveMounted (host : Host) : TableMove → Host
  | .enter identity => host.registerMounted identity
  | .leave identity => host.unregisterMounted identity

/-- What a move does to the table of the session. -/
def tableAfter (table : Assoc String InstanceId) : TableMove → Assoc String InstanceId
  | .enter identity => Assoc.insert identity.path.key identity.id table
  | .leave identity => unregistered identity.path.key identity.id table

theorem table_moveMounted (host : Host) (move : TableMove) (session : SessionId) :
    (host.moveMounted move).table session = if session = move.identity.session then
      (host.table session).map (tableAfter · move) else host.table session := by
  cases move with
  | enter identity =>
      rw [moveMounted, table, (sessions_registerMounted identity host).1]
      exact table_modifySession identity.session (tableAfter · (.enter identity)) (fun _ => rfl)
        host session
  | leave identity =>
      refine table_modifySession identity.session (tableAfter · (.leave identity)) (fun entry => ?_)
        host session
      rw [tableAfter, unregistered]
      split <;> rfl

theorem nodup_tableAfter {table : Assoc String InstanceId} (distinct : (Assoc.keys table).Nodup)
    (move : TableMove) : (Assoc.keys (tableAfter table move)).Nodup := by
  cases move with
  | enter identity => exact Assoc.nodup_keys_insert _ _ distinct
  | leave identity => exact nodup_unregistered _ _ distinct

theorem get?_tableAfter {table : Assoc String InstanceId} (distinct : (Assoc.keys table).Nodup)
    (move : TableMove) (path : Path) : Assoc.get? path.key (tableAfter table move) =
      if move.identity.path = path then move.slotAfter (Assoc.get? path.key table)
      else Assoc.get? path.key table := by
  have own : path.key = move.identity.path.key ↔ move.identity.path = path :=
    Path.key_inj.trans eq_comm
  cases move with
  | enter identity =>
      rw [tableAfter, Assoc.get?_insert]
      exact if_congr own rfl rfl
  | leave identity =>
      rw [tableAfter, get?_unregistered _ _ _ distinct]
      exact if_congr own rfl rfl

/-- The slot of a position has been through the moves at this position, and no others. -/
theorem get?_table_moves (moves : List TableMove) {host : Host} {session : SessionId}
    {table : Assoc String InstanceId} (there : host.table session = some table)
    (distinct : (Assoc.keys table).Nodup) (path : Path) :
    ((moves.foldl moveMounted host).table session).bind (Assoc.get? path.key) =
      (moves.filter fun move => move.identity.session = session ∧ move.identity.path = path).foldl
        TableMove.slotAfter (Assoc.get? path.key table) := by
  induction moves generalizing host table with
  | nil => rw [List.foldl_nil, there]; rfl
  | cons move moves ih =>
      have moved := table_moveMounted host move session
      by_cases inSession : session = move.identity.session
      · rw [if_pos inSession, there, Option.map_some] at moved
        rw [List.foldl_cons, ih moved (nodup_tableAfter distinct move), get?_tableAfter distinct]
        by_cases here : move.identity.path = path
        · rw [if_pos here, List.filter_cons_of_pos (by simp [inSession, here]), List.foldl_cons]
        · rw [if_neg here, List.filter_cons_of_neg (by simp [here])]
      · rw [if_neg inSession, there] at moved
        rw [List.foldl_cons, ih moved distinct,
          List.filter_cons_of_neg (by simp [Ne.symm inSession])]

end Host

/-- Requests at other positions do not matter: what is found for a key, by the text of its path, is
    what the requests at this very path have built. -/
theorem CallbackTables.found_by_text (requests : List CallbackRequest) (key : CallbackKey) :
    (((askAll 0 (requests.map CallbackRequest.key) empty).2.find? key).bind fun number =>
        requests[number]?).map CallbackRequest.made =
      (RenderContext.serveAll
        (requests.filter fun request => request.key.path = key.path)).stored? key := by
  have knows : (askAll 0 (requests.map CallbackRequest.key) empty).2.Knows
      (requests.map CallbackRequest.key) := (knows_empty.askAll _).2
  rw [knows.bind_getElem?, RenderContext.stored?_serveAll, List.find?_filter]
  congr 2
  funext request
  by_cases same : request.key = key <;> simp [same]

/-- Different paths have different keys, and messages show them differently. So no position shares
    its slot with another one. After any requests for callbacks, what is found under the text of a
    path is what the requests at this path have built; and after instances have entered the table of
    mounted components and left it, the slot of a path is as the moves at this path have left it. -/
theorem Path.positions_have_own_slots :
    (∀ path other : Path, path.key = other.key ↔ path = other) ∧
    (∀ path other : Path, path.display = other.display ↔ path = other) ∧
    (∀ path : Path, path.display = "<root>" ↔ path = root) ∧
    (∀ (requests : List CallbackRequest) (key : CallbackKey),
      let byText := (CallbackTables.askAll 0 (requests.map CallbackRequest.key) .empty).2
      let here := requests.filter fun request => request.key.path = key.path
      ((byText.find? key).bind fun number => requests[number]?).map CallbackRequest.made =
        (RenderContext.serveAll here).stored? key) ∧
    ∀ (moves : List TableMove) (host : Host) (session : SessionId)
      (table : Assoc String InstanceId),
      host.table session = some table → (Assoc.keys table).Nodup → ∀ path : Path,
        let here := moves.filter fun move =>
          move.identity.session = session ∧ move.identity.path = path
        ((moves.foldl Host.moveMounted host).table session).bind (Assoc.get? path.key) =
          here.foldl TableMove.slotAfter (Assoc.get? path.key table) :=
  ⟨fun _ _ => key_inj, fun _ _ => display_inj, fun _ => display_eq_rootWord,
    CallbackTables.found_by_text, fun moves _ _ _ there distinct path =>
      Host.get?_table_moves moves there distinct path⟩

/-- What is mounted at `1.1` stays there while another instance comes and goes at `11`. -/
theorem Path.neighbour_leaves_slot_alone :
    let session := Host.empty.openSession.1
    let host := Host.empty.openSession.2
    let first : Instance := ⟨0, session, 7, ⟨[1, 1]⟩, some 1⟩
    let second : Instance := ⟨1, session, 7, ⟨[11]⟩, some 11⟩
    let moves : List TableMove := [.enter first, .enter second, .leave second]
    host.table session = some [] ∧ (Assoc.keys ([] : Assoc String InstanceId)).Nodup ∧
      ((moves.foldl Host.moveMounted host).table session).bind (Assoc.get? first.path.key) =
        some first.id := by
  intro session host first second moves
  have slots := positions_have_own_slots.2.2.2.2 moves host session [] rfl List.nodup_nil first.path
  exact ⟨rfl, List.nodup_nil, slots.trans (by decide)⟩

end RemoteView
