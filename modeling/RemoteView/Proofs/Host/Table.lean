import RemoteView.Proofs.Host.Settled

/-! # The tables of mounted components

A path of a session stands for the instance that was mounted there last, for as long as that one is
mounted. When it is unmounted the path stands for nothing, even if an instance that was mounted
there earlier is still mounted.
-/

namespace RemoteView.Host

/-- The table of mounted components of a session. -/
def table (host : Host) (session : SessionId) : Option (Assoc String InstanceId) :=
  (host.sessions.get? session).map Session.mounted

/-- Does an instance belong to the key of a path in a session? -/
def belongs (host : Host) (session : SessionId) (key : String) (id : InstanceId) : Bool :=
  (host.standing id).any fun standing =>
    standing.identity.session = session ∧ standing.identity.path.key = key

def isMounted (host : Host) (id : InstanceId) : Bool :=
  (host.standing id).any fun standing => standing.phase = .mounted

theorem belongs_iff {host : Host} {session : SessionId} {key : String} {id : InstanceId} :
    host.belongs session key id = true ↔ ∃ standing, host.standing id = some standing ∧
      standing.identity.session = session ∧ standing.identity.path.key = key := by
  unfold belongs
  cases host.standing id with
  | none => simp
  | some standing => simp

/-- An instance belongs to the key of its own path in its session, and to no other one. -/
theorem belongs_iff_of_standing {host : Host} {id : InstanceId} {standing : Standing}
    (stands : host.standing id = some standing) (session : SessionId) (key : String) :
    host.belongs session key id = true ↔
      session = standing.identity.session ∧ key = standing.identity.path.key := by
  simp only [belongs, stands, Option.any_some, decide_eq_true_eq]
  exact and_congr eq_comm eq_comm

/-- What becomes of the standing of one instance is what becomes of every standing. -/
theorem ite_map_standing (n id : InstanceId) (move : Standing → Standing)
    (found : Option Standing) : (if n = id then found.map move else found) =
      found.map fun standing => if n = id then move standing else standing := by
  split <;> simp

/-- The last one, of instances that were mounted one after another, that belongs to a key. -/
def lastMounted (mounts : List InstanceId) (host : Host) (session : SessionId) (key : String) :
    Option InstanceId :=
  (mounts.filter (host.belongs session key)).getLast?

theorem of_lastMounted {mounts : List InstanceId} {host : Host} {session : SessionId}
    {key : String} {id : InstanceId} (last : lastMounted mounts host session key = some id) :
    id ∈ mounts ∧ host.belongs session key id = true :=
  List.mem_filter.mp (List.mem_of_getLast? last)

theorem filter_ne_of_lastMounted {mounts : List InstanceId} {host : Host} {session : SessionId}
    {key : String} {id : InstanceId} (other : lastMounted mounts host session key ≠ some id) :
    ((lastMounted mounts host session key).filter host.isMounted).filter (· ≠ id) =
      (lastMounted mounts host session key).filter host.isMounted := by
  cases last : lastMounted mounts host session key with
  | none => rfl
  | some n =>
      have ne : n ≠ id := by
        rintro rfl
        exact other last
      rw [Option.filter_some]
      split
      · simp [Option.filter_some, ne]
      · rfl

theorem belongs_of_map {host after : Host} {id : InstanceId} {move : Standing → Standing}
    (same : after.standing id = (host.standing id).map move)
    (keeps : ∀ standing, (move standing).identity = standing.identity) (session : SessionId)
    (key : String) : after.belongs session key id = host.belongs session key id := by
  unfold belongs
  rw [same]
  cases host.standing id with
  | none => rfl
  | some standing => simp [keeps]

theorem isMounted_of_map {host after : Host} {id : InstanceId} {move : Standing → Standing}
    (same : after.standing id = (host.standing id).map move)
    (keeps : ∀ standing, (move standing).phase = standing.phase) :
    after.isMounted id = host.isMounted id := by
  unfold isMounted
  rw [same]
  cases host.standing id with
  | none => rfl
  | some standing => simp [keeps]

/-- The tables of a host after instances were mounted one after another. -/
structure Tabled (mounts : List InstanceId) (host : Host) : Prop where
  named : host.Named
  bounded : host.sessions.IsBounded
  current : ∀ session, host.current = some session → (host.table session).isSome
  known : ∀ id standing, host.standing id = some standing →
    (host.table standing.identity.session).isSome
  distinct : ∀ session table, host.table session = some table → (Assoc.keys table).Nodup
  exact : ∀ session table key, host.table session = some table →
    Assoc.get? key table = (lastMounted mounts host session key).filter host.isMounted

namespace Tabled

variable {mounts : List InstanceId} {host after : Host}

theorem empty : Tabled [] .empty where
  named id standing found := by
    simp [Host.standing, Host.empty, Numbered.get?, Numbered.empty] at found
  bounded := Numbered.isBounded_empty
  current session live := by simp [Host.empty] at live
  known id standing found := by
    simp [Host.standing, Host.empty, Numbered.get?, Numbered.empty] at found
  distinct session table found := by
    simp [Host.table, Host.empty, Numbered.get?, Numbered.empty] at found
  exact session table key found := by
    simp [Host.table, Host.empty, Numbered.get?, Numbered.empty] at found

theorem of_table (tabled : Tabled mounts host) (named : after.Named)
    (bounded : after.sessions.IsBounded) (current : after.current = host.current)
    (table : after.table = host.table)
    (known : ∀ id standing, after.standing id = some standing →
      (host.table standing.identity.session).isSome)
    (belongs : ∀ id ∈ mounts, ∀ session key,
      after.belongs session key id = host.belongs session key id)
    (mounted : ∀ id ∈ mounts, after.isMounted id = host.isMounted id) : Tabled mounts after := by
  have last (session : SessionId) (key : String) :
      lastMounted mounts after session key = lastMounted mounts host session key := by
    unfold lastMounted
    rw [List.filter_congr fun id member => belongs id member session key]
  refine ⟨named, bounded, ?_, ?_, ?_, ?_⟩
  · rw [current, table]
    exact tabled.current
  · rw [table]
    exact known
  · rw [table]
    exact tabled.distinct
  · intro session entries key found
    rw [table] at found
    rw [tabled.exact session entries key found, last]
    cases isLast : lastMounted mounts host session key with
    | none => rfl
    | some id =>
        rw [Option.filter_some, Option.filter_some, mounted id (of_lastMounted isLast).1]

theorem congr (tabled : Tabled mounts host) (bounded : after.sessions.IsBounded)
    (current : after.current = host.current) (table : after.table = host.table)
    (standing : after.standing = host.standing) : Tabled mounts after := by
  have alike (id : InstanceId) : after.standing id = (host.standing id).map fun stands => stands := by
    rw [standing, Option.map_id']
  refine tabled.of_table ?_ bounded current table ?_
    (fun id _ => belongs_of_map (alike id) fun _ => rfl)
    (fun id _ => isMounted_of_map (alike id) fun _ => rfl)
  · intro id
    rw [standing]
    exact tabled.named id
  · intro id
    rw [standing]
    exact tabled.known id

theorem calledBack (tabled : Tabled mounts host) (called : CalledBack host after) :
    Tabled mounts after :=
  tabled.congr (called.sessions ▸ tabled.bounded) called.current
    (by unfold Host.table; rw [called.sessions]) (standing_congr called.instances)

theorem openSession (tabled : Tabled mounts host) : Tabled mounts host.openSession.2 := by
  have absent : host.table host.sessions.next = none := by
    cases found : host.sessions.get? host.sessions.next with
    | none => simp [Host.table, found]
    | some state => exact absurd (tabled.bounded _ state found) (Nat.lt_irrefl _)
  have table (session : SessionId) : host.openSession.2.table session =
      if session = host.sessions.next then some [] else host.table session := by
    simp only [Host.table, Host.openSession, Numbered.get?_add]
    split <;> rfl
  have shown {session : SessionId} (there : (host.table session).isSome) :
      host.openSession.2.table session = host.table session := by
    rw [table, if_neg]
    rintro rfl
    simp [absent] at there
  refine ⟨tabled.named, tabled.bounded.put _ _, ?_, ?_, ?_, ?_⟩
  · rintro session ⟨⟩
    rw [table, if_pos rfl]
    rfl
  · intro id standing found
    have there := tabled.known id standing found
    rwa [shown there]
  · intro session entries found
    rw [table] at found
    split at found
    · obtain rfl := Option.some.inj found
      exact List.nodup_nil
    · exact tabled.distinct session entries found
  · intro session entries key found
    rw [table] at found
    split at found
    · -- No instance belongs to the new session.
      rename_i new
      obtain rfl := Option.some.inj found
      have nobody (id : InstanceId) : ¬ host.belongs session key id = true := by
        intro here
        obtain ⟨standing, stands, rfl, -⟩ := belongs_iff.mp here
        have there := tabled.known id standing stands
        simp [new, absent] at there
      have none : lastMounted mounts host session key = none := by
        rw [lastMounted, List.filter_eq_nil_iff.mpr fun id _ => nobody id]
        rfl
      have same : lastMounted mounts host.openSession.2 session key =
          lastMounted mounts host session key := rfl
      rw [same, none]
      rfl
    · exact tabled.exact session entries key found

theorem dropSession (tabled : Tabled mounts host) : Tabled mounts host.dropSession where
  named := tabled.named
  bounded := tabled.bounded
  current session live := by simp [Host.dropSession] at live
  known := tabled.known
  distinct := tabled.distinct
  exact := tabled.exact

theorem instantiate (tabled : Tabled mounts host) {identity : Instance} (payload : Payload)
    (new : identity.id ∉ mounts) (live : (host.table identity.session).isSome) :
    Tabled mounts (host.instantiate identity payload) := by
  have old (id : InstanceId) (member : id ∈ mounts) :
      (host.instantiate identity payload).standing id = (host.standing id).map fun stands => stands := by
    rw [standing_instantiate, if_neg, Option.map_id']
    rintro rfl
    exact new member
  refine tabled.of_table (tabled.named.runStep (.instantiate identity payload)) tabled.bounded rfl
    rfl ?_ (fun id member => belongs_of_map (old id member) fun _ => rfl)
    (fun id member => isMounted_of_map (old id member) fun _ => rfl)
  intro id standing found
  rw [standing_instantiate] at found
  split at found
  · obtain rfl := Option.some.inj found
    exact live
  · exact tabled.known id standing found

theorem release (tabled : Tabled mounts host) (id : InstanceId) : Tabled mounts (host.release id) := by
  have alike (n : InstanceId) := (standing_release id host n).trans (ite_map_standing n id _ _)
  refine tabled.of_table (tabled.named.runStep (.release id)) tabled.bounded rfl rfl ?_
    (fun n _ => belongs_of_map (alike n) fun standing => by split <;> rfl)
    (fun n _ => isMounted_of_map (alike n) fun standing => by split <;> rfl)
  intro n standing found
  rw [alike, Option.map_eq_some_iff] at found
  obtain ⟨was, stood, rfl⟩ := found
  have there := tabled.known n was stood
  split <;> exact there

end Tabled

/-! ## Leaving and entering -/

theorem table_modifySession (id : SessionId) {change : Session → Session}
    (move : Assoc String InstanceId → Assoc String InstanceId)
    (moves : ∀ session, (change session).mounted = move session.mounted) (host : Host)
    (session : SessionId) : (host.modifySession id change).table session =
      if session = id then (host.table session).map move else host.table session := by
  simp only [table, modifySession, Numbered.get?_modify]
  split
  · cases host.sessions.get? session with
    | none => rfl
    | some state => simp [moves]
  · rfl

theorem table_declare (context : ContextId) (host : Host) (declaration : Declaration) :
    (host.declare context declaration).table = host.table := by
  cases declaration with
  | listener | ref | rules => rfl
  | component id name =>
      funext session
      rw [declare, table_modifySession context.session fun table => table]
      · split <;> simp
      · exact fun _ => rfl

theorem table_declareAll (site : Site) (spine : Spine) (host : Host) :
    (host.declareAll site spine).table = host.table := by
  unfold declareAll
  induction spine.declarations site.path generalizing host with
  | nil => rfl
  | cons declaration rest ih => exact (ih _).trans (table_declare site.context host declaration)

/-- The entry of an instance is taken out of a table, if it has not been replaced. -/
def unregistered (key : String) (id : InstanceId) (table : Assoc String InstanceId) :
    Assoc String InstanceId :=
  if Assoc.get? key table = some id then Assoc.erase key table else table

theorem nodup_unregistered (key : String) (id : InstanceId) {table : Assoc String InstanceId}
    (distinct : (Assoc.keys table).Nodup) : (Assoc.keys (unregistered key id table)).Nodup := by
  unfold unregistered
  split
  · rw [Assoc.keys_erase]
    exact distinct.erase key
  · exact distinct

theorem get?_unregistered (key k : String) (id : InstanceId) {table : Assoc String InstanceId}
    (distinct : (Assoc.keys table).Nodup) : Assoc.get? k (unregistered key id table) =
      if k = key then (Assoc.get? k table).filter (· ≠ id) else Assoc.get? k table := by
  unfold unregistered
  by_cases same : k = key
  · subst same
    rw [if_pos rfl]
    cases stored : Assoc.get? k table with
    | none => simp [stored]
    | some n =>
        by_cases this : n = id
        · simp [this, Assoc.get?_erase k k distinct, Option.filter_some]
        · simp [this, stored, Option.filter_some]
  · rw [if_neg same]
    split
    · rw [Assoc.get?_erase key k distinct, if_neg same]
    · rfl

theorem sessions_willUnmount {host : Host} {id : InstanceId} {state : InstanceState}
    (found : host.instances.get? id = some state) (mounted : state.phase = .mounted) :
    (host.willUnmount id).sessions =
      (host.unregisterMounted state.identity).sessions ∧
    (host.willUnmount id).current = host.current := by
  obtain ⟨window, same⟩ := willUnmount_eq found mounted
  have hooked := CalledBack.runHooks state.identity state.payload.behaviour.onUnmount
    (host.modifyInstance id ({ · with phase := .unmounted, attached := [] }))
  rw [same]
  simp only [unregisterMounted, modifySession, hooked.sessions, hooked.current]
  exact ⟨rfl, rfl⟩

theorem isSome_willUnmount (host : Host) (id : InstanceId) (session : SessionId) :
    ((host.willUnmount id).table session).isSome = (host.table session).isSome := by
  rcases willUnmount_cases id host with ⟨state, found, mounted⟩ | ⟨-, same⟩
  · rw [table, (sessions_willUnmount found mounted).1]
    change ((host.unregisterMounted state.identity).table session).isSome = _
    rw [unregisterMounted, table_modifySession _
      (unregistered state.identity.path.key state.identity.id)]
    · split <;> simp
    · intro entry
      rw [unregistered]
      split <;> rfl
  · rw [same]

theorem isSome_runStep (host : Host) (step : Step) (session : SessionId) :
    ((host.runStep step).table session).isSome = (host.table session).isSome := by
  cases step with
  | createHandle | syncHandle | release | instantiate | receive => rfl
  | detachRef id =>
      rw [runStep, table, (CalledBack.detachRef id host).sessions]
      rfl
  | willUnmount id => exact isSome_willUnmount host id session
  | declare site spine => rw [runStep, table_declareAll]

theorem lastMounted_willUnmount (mounts : List InstanceId) (host : Host) (id : InstanceId)
    (session : SessionId) (key : String) :
    lastMounted mounts (host.willUnmount id) session key =
      lastMounted mounts host session key := by
  have alike (n : InstanceId) := (standing_willUnmount id host n).trans (ite_map_standing n id _ _)
  unfold lastMounted
  rw [List.filter_congr fun n _ =>
    belongs_of_map (alike n) (fun standing => by split <;> simp) session key]

theorem isMounted_willUnmount (host : Host) (id n : InstanceId) :
    (host.willUnmount id).isMounted n = (host.isMounted n && n ≠ id) := by
  unfold isMounted
  rw [standing_willUnmount]
  cases host.standing n <;> by_cases same : n = id <;> simp [same, Standing.unmount]
  grind

/-- An instance is entered in a session. -/
def registered (identity : Instance) (session : Session) : Session :=
  { session with mounted := Assoc.insert identity.path.key identity.id session.mounted }

theorem sessions_registerMounted (identity : Instance) (host : Host) :
    (host.registerMounted identity).sessions =
        host.sessions.modify identity.session (registered identity) ∧
      (host.registerMounted identity).current = host.current := by
  obtain ⟨_, same⟩ := registerMounted_eq identity host
  rw [same]
  exact ⟨rfl, rfl⟩

theorem sessions_didMount {host : Host} {id : InstanceId} {state : InstanceState}
    (found : host.instances.get? id = some state) (created : state.phase = .created) :
    (host.didMount id).sessions = (host.registerMounted state.identity).sessions ∧
    (host.didMount id).current = host.current := by
  have attached (declared : List WindowListener) (host : Host) :
      (declared.foldl (attachListener state.identity) host).sessions = host.sessions ∧
      (declared.foldl (attachListener state.identity) host).current = host.current := by
    induction declared generalizing host with
    | nil => exact ⟨rfl, rfl⟩
    | cons first rest ih => exact ih _
  simp only [didMount, found, created, if_pos, attached, (CalledBack.runHooks _ _ _).sessions,
    (CalledBack.runHooks _ _ _).current, sessions_registerMounted]
  exact ⟨rfl, rfl⟩

theorem lastMounted_didMount (mounts : List InstanceId) (host : Host) (id : InstanceId)
    (session : SessionId) (key : String) :
    lastMounted (mounts ++ [id]) (host.didMount id) session key =
      if host.belongs session key id then some id else lastMounted mounts host session key := by
  have alike (n : InstanceId) := (standing_didMount id host n).trans (ite_map_standing n id _ _)
  unfold lastMounted
  rw [List.filter_congr fun n _ =>
    belongs_of_map (alike n) (fun standing => by split <;> simp) session key, List.filter_append]
  by_cases this : host.belongs session key id = true <;> simp [this]

theorem isMounted_didMount {host : Host} {id : InstanceId} {standing : Standing}
    (stands : host.standing id = some standing) (created : standing.phase = .created)
    (n : InstanceId) : (host.didMount id).isMounted n = (host.isMounted n || n = id) := by
  unfold isMounted
  rw [standing_didMount]
  by_cases same : n = id
  · subst same
    simp [stands, Standing.mount, created]
  · simp [same]

namespace Tabled

variable {mounts later : List InstanceId} {host after : Host}

theorem of_modify (tabled : Tabled mounts host) (named : after.Named)
    (bounded : after.sessions.IsBounded) (current : after.current = host.current)
    (own : SessionId) (move : Assoc String InstanceId → Assoc String InstanceId)
    (table : ∀ session, after.table session =
      if session = own then (host.table session).map move else host.table session)
    (identity : ∀ n, (after.standing n).map Standing.identity =
      (host.standing n).map Standing.identity)
    (distinct : ∀ entries, (Assoc.keys entries).Nodup → (Assoc.keys (move entries)).Nodup)
    (exact : ∀ session key entries, host.table session = some entries →
      Assoc.get? key (if session = own then move entries else entries) =
        (lastMounted later after session key).filter after.isMounted) : Tabled later after := by
  have isSome (session : SessionId) : (after.table session).isSome = (host.table session).isSome := by
    rw [table]
    split <;> simp
  have entry (session : SessionId) (entries : Assoc String InstanceId)
      (found : after.table session = some entries) : ∃ was, host.table session = some was ∧
        entries = if session = own then move was else was := by
    rw [table] at found
    split at found
    · rename_i here
      obtain ⟨was, there, rfl⟩ := Option.map_eq_some_iff.mp found
      exact ⟨was, there, by rw [if_pos here]⟩
    · rename_i elsewhere
      exact ⟨entries, found, by rw [if_neg elsewhere]⟩
  refine ⟨named, bounded, ?_, ?_, ?_, ?_⟩
  · intro session live
    rw [isSome]
    exact tabled.current session (by rwa [← current])
  · intro n standing stands
    have same := identity n
    rw [stands, Option.map_some] at same
    obtain ⟨was, stood, alike⟩ := Option.map_eq_some_iff.mp same.symm
    rw [isSome, ← alike]
    exact tabled.known n was stood
  · intro session entries found
    obtain ⟨was, there, rfl⟩ := entry session entries found
    split
    · exact distinct was (tabled.distinct session was there)
    · exact tabled.distinct session was there
  · intro session entries key found
    obtain ⟨was, there, rfl⟩ := entry session entries found
    exact exact session key was there

theorem get?_leaving (tabled : Tabled mounts host) {id : InstanceId} {standing : Standing}
    (stands : host.standing id = some standing) {session : SessionId} {key : String}
    {entries : Assoc String InstanceId} (there : host.table session = some entries) :
    Assoc.get? key (if session = standing.identity.session then
      unregistered standing.identity.path.key id entries else entries) =
        (Assoc.get? key entries).filter (· ≠ id) := by
  by_cases own : host.belongs session key id = true
  · obtain ⟨rfl, rfl⟩ := (belongs_iff_of_standing stands session key).mp own
    rw [if_pos rfl, get?_unregistered _ _ _ (tabled.distinct _ entries there), if_pos rfl]
  · -- Only the key of the instance can stand for it.
    have other : (Assoc.get? key entries).filter (· ≠ id) = Assoc.get? key entries := by
      rw [tabled.exact session entries key there]
      exact filter_ne_of_lastMounted fun isLast => own (of_lastMounted isLast).2
    rw [other]
    split
    · rename_i same
      rw [get?_unregistered _ _ _ (tabled.distinct session entries there), if_neg]
      exact fun alike => own ((belongs_iff_of_standing stands session key).mpr ⟨same, alike⟩)
    · rfl

theorem willUnmount (tabled : Tabled mounts host) (id : InstanceId) :
    Tabled mounts (host.willUnmount id) := by
  rcases willUnmount_cases id host with ⟨state, found, mounted⟩ | ⟨-, same⟩
  · obtain ⟨sessions, current⟩ := sessions_willUnmount found mounted
    have stands : host.standing id = some state.standing := Host.standing_of_get? found
    have name : state.identity.id = id := tabled.named id _ stands
    have alike (n : InstanceId) :=
      (standing_willUnmount id host n).trans (ite_map_standing n id _ _)
    refine tabled.of_modify (tabled.named.runStep (.willUnmount id)) ?_ current
      state.identity.session (unregistered state.identity.path.key id) ?_ ?_
      (fun entries distinct => nodup_unregistered _ _ distinct) ?_
    · rw [sessions]
      exact tabled.bounded.modify _ _
    · intro session
      rw [Host.table, sessions]
      refine table_modifySession _ _ (fun entry => ?_) host session
      rw [unregistered, name]
      split <;> rfl
    · intro n
      rw [alike, Option.map_map]
      congr 1
      funext standing
      simp only [Function.comp_apply]
      split <;> simp
    · intro session key was there
      refine (tabled.get?_leaving stands there).trans ?_
      rw [tabled.exact session was key there, lastMounted_willUnmount, Option.filter_filter]
      exact congrArg (fun p => Option.filter p _)
        (funext fun n => (isMounted_willUnmount host id n).symm)
  · rw [same]
    exact tabled

theorem get?_entering {id : InstanceId} {standing : Standing}
    (stands : host.standing id = some standing) (session : SessionId) (key : String)
    (entries : Assoc String InstanceId) :
    Assoc.get? key (if session = standing.identity.session then
      Assoc.insert standing.identity.path.key id entries else entries) =
        if host.belongs session key id then some id else Assoc.get? key entries := by
  have own := belongs_iff_of_standing stands session key
  by_cases this : host.belongs session key id = true
  · obtain ⟨rfl, rfl⟩ := own.mp this
    simp [this]
  · rw [if_neg this]
    split
    · rename_i same
      exact Assoc.get?_insert_of_ne (fun alike => this (own.mpr ⟨same, alike⟩)) _ _
    · rfl

theorem didMount (tabled : Tabled mounts host) {id : InstanceId} {standing : Standing}
    (stands : host.standing id = some standing) (created : standing.phase = .created) :
    Tabled (mounts ++ [id]) (host.didMount id) := by
  obtain ⟨state, found, rfl⟩ := Option.map_eq_some_iff.mp stands
  obtain ⟨sessions, current⟩ := sessions_didMount found created
  have name : state.identity.id = id := tabled.named id _ stands
  have alike (n : InstanceId) := (standing_didMount id host n).trans (ite_map_standing n id _ _)
  refine tabled.of_modify (tabled.named.runEffect (.didMount id)) ?_ current
    state.identity.session (Assoc.insert state.identity.path.key id) ?_ ?_
    (fun entries distinct => Assoc.nodup_keys_insert _ _ distinct) ?_
  · rw [sessions, (sessions_registerMounted _ _).1]
    exact tabled.bounded.modify _ _
  · intro session
    rw [Host.table, sessions, (sessions_registerMounted _ _).1]
    exact table_modifySession _ _ (fun entry => by rw [registered, name]) host session
  · intro n
    rw [alike, Option.map_map]
    congr 1
    funext standing
    simp only [Function.comp_apply]
    split <;> simp
  · intro session key was there
    have isMounted := isMounted_didMount stands created
    refine (get?_entering stands session key was).trans ?_
    rw [lastMounted_didMount]
    by_cases this : host.belongs session key id = true
    · simp [this, isMounted, Option.filter_some]
    · rw [if_neg this, if_neg this, tabled.exact session was key there]
      cases isLast : lastMounted mounts host session key with
      | none => rfl
      | some n =>
          have ne : n ≠ id := by
            rintro rfl
            exact this (of_lastMounted isLast).2
          simp [Option.filter_some, isMounted, ne]

/-! ## Renderings -/

theorem declare (tabled : Tabled mounts host) (context : ContextId) (declaration : Declaration) :
    Tabled mounts (host.declare context declaration) := by
  cases declaration with
  | listener | ref | rules => exact tabled.congr tabled.bounded rfl rfl rfl
  | component id name =>
      exact tabled.congr (tabled.bounded.modify _ _) rfl
        (table_declare context host (.component id name)) rfl

theorem declareAll (tabled : Tabled mounts host) (site : Site) (spine : Spine) :
    Tabled mounts (host.declareAll site spine) := by
  unfold Host.declareAll
  induction spine.declarations site.path generalizing host with
  | nil => exact tabled
  | cons declaration rest ih => exact ih (tabled.declare site.context declaration)

theorem runStep (tabled : Tabled mounts host) (step : Step)
    (new : ∀ identity ∈ step.instantiated?,
      identity.id ∉ mounts ∧ (host.table identity.session).isSome) :
    Tabled mounts (host.runStep step) := by
  cases step with
  | createHandle | syncHandle => exact tabled.congr tabled.bounded rfl rfl rfl
  | detachRef id => exact tabled.calledBack (CalledBack.detachRef id host)
  | willUnmount id => exact tabled.willUnmount id
  | release id => exact tabled.release id
  | instantiate identity payload =>
      obtain ⟨absent, live⟩ := new identity rfl
      exact tabled.instantiate payload absent live
  | receive id payload =>
      exact tabled.congr tabled.bounded rfl rfl (standing_setPayload id payload host)
  | declare site spine => exact tabled.declareAll site spine

theorem steps (steps : List Step) (tabled : Tabled mounts host)
    (new : ∀ identity ∈ Step.instantiations steps,
      identity.id ∉ mounts ∧ (host.table identity.session).isSome) :
    Tabled mounts (steps.foldl Host.runStep host) := by
  induction steps generalizing host with
  | nil => exact tabled
  | cons step rest ih =>
      rw [Step.instantiations_cons] at new
      refine ih (tabled.runStep step fun identity created =>
        new identity (List.mem_append_left _ (Option.mem_toList.mpr created))) ?_
      intro identity created
      obtain ⟨absent, live⟩ := new identity (List.mem_append_right _ created)
      exact ⟨absent, by rwa [isSome_runStep]⟩

theorem effects (effects : List Effect) (tabled : Tabled mounts host)
    (once : (Effect.mounts effects).Nodup)
    (new : ∀ id ∈ Effect.mounts effects, ∃ identity held,
      host.standing id = some ⟨identity, .created, held⟩) :
    Tabled (mounts ++ Effect.mounts effects) (effects.foldl Host.runEffect host) := by
  induction effects generalizing mounts host with
  | nil => simpa using tabled
  | cons effect rest ih =>
      cases effect with
      | attachRef id handle =>
          have called := CalledBack.attachRef id (.host handle) host
          have same := standing_congr called.instances
          exact ih (tabled.calledBack called) once fun n member => by
            rw [Host.runEffect, same]
            exact new n member
      | didMount id =>
          obtain ⟨identity, held, created⟩ := new id (by simp)
          have once : id ∉ Effect.mounts rest ∧ (Effect.mounts rest).Nodup := by simpa using once
          have step := ih (tabled.didMount created rfl) once.2 fun n member => by
            rw [standing_didMount, if_neg]
            · exact new n (by simp [member])
            · rintro rfl
              exact once.1 member
          simpa [Host.runEffect] using step

end Tabled

end RemoteView.Host

namespace RemoteView.Turnover

variable {host : Host} {session : SessionId} {before after : List Instance} {steps : List Step}
  {effects : List Effect} {finish : Supply} {mounts : List InstanceId}

theorem nodup_mounts (turnover : Turnover session host.supply before after steps effects finish) :
    (Effect.mounts effects).Nodup := by
  rw [List.nodup_iff_count]
  intro n
  have once := List.nodup_iff_count.mp turnover.nodup_instantiations n
  have mounted := turnover.mounted n
  omega

theorem created_of_mounted
    (turnover : Turnover session host.supply before after steps effects finish) {n : InstanceId}
    (mounted : n ∈ Effect.mounts effects) :
    ∃ identity ∈ Step.instantiations steps, identity.id = n := by
  have count := turnover.mounted n
  have positive := List.count_pos_iff.mpr mounted
  exact List.mem_map.mp (List.count_pos_iff.mp (by omega))

/-- A rendering takes the tables along. -/
theorem tabled_commit {α : Type} {outcome : Outcome α}
    (turnover : Turnover session host.supply before after outcome.steps outcome.effects finish)
    (settled : host.Settled before) (tabled : Host.Tabled mounts host)
    (old : ∀ id ∈ mounts, id < host.instances.next)
    (live : ∀ identity ∈ Step.instantiations outcome.steps,
      (host.table identity.session).isSome) :
    Host.Tabled (mounts ++ Effect.mounts outcome.effects) (host.commit outcome) := by
  have stepped := tabled.steps outcome.steps fun identity created =>
    ⟨fun member => Nat.not_lt_of_le (turnover.le_of_created created) (old _ member),
      live identity created⟩
  refine stepped.effects outcome.effects turnover.nodup_mounts fun n mounted => ?_
  obtain ⟨identity, created, rfl⟩ := turnover.created_of_mounted mounted
  obtain ⟨once, -, kept, held, -⟩ := turnover.entered settled created
  exact ⟨identity, true, Host.standing_steps_created created (Nat.le_of_eq once)
    (List.count_eq_zero.mp kept) (List.count_eq_zero.mp held) host⟩

end RemoteView.Turnover
