import RemoteView.Proofs.Host.Over
import RemoteView.Proofs.Host.Parting
import RemoteView.Proofs.Host.Stored
import RemoteView.Proofs.Mounted.Losses

/-! # Refs that are detached

What the steps of a rendering detach, and what the refs answer. A ref whose context works has its
stable key cleared and its expression evaluated; any other ref is passed over. When everything is
taken down and no session is open, a context works as long as an instance of its session is still to
be let go of.
-/

namespace RemoteView

/-- Is a message what a ref answered? -/
def ClientMessage.isRef : ClientMessage → Bool
  | .ref .. => true
  | .location .. | .action .. | .hook .. | .event .. => false

/-- The message that an answer of a ref comes to: one with its action, if it has one. -/
def RefId.messages (id : RefId) : Value → List (SessionId × ClientMessage)
  | .refHandler ⟨some action⟩ => [(id.context.session, .ref id.path action)]
  | _ => []

namespace Host

/-- What refs have answered, with the sessions in which it was sent. -/
def refsSent (host : Host) : List (SessionId × ClientMessage) :=
  host.sent.filter fun message => message.2.isRef

/-- The host with nothing stored under the stable key of a ref. -/
def forgetting (id : RefId) (declared : RefAttribute) (host : Host) : Host :=
  host.withKey id declared fun key => Assoc.erase key

/-- What a ref answers when it is detached, with the host afterwards. -/
def detachAnswer (id : RefId) (declared : RefAttribute) (host : Host) : Value × Host :=
  (host.forgetting id declared).evaluateIn id.context [(handleHole, .json .null)] declared.detach

/-- The ref that a step detaches, with the host that it leaves. -/
def detaching? (host : Host) (step : Step) : Option (Host × RefId) := step.detached?.map (host, ·)

/-- The refs that steps detach, each with the host that it leaves. -/
def detachings : List Step → Host → List (Host × RefId)
  | [], _ => []
  | step :: rest, host => (host.detaching? step).toList ++ detachings rest (host.runStep step)

/-- Does the context of a ref work when the ref is detached? -/
def hears (detaching : Host × RefId) : Bool := detaching.1.isContextAlive detaching.2.context

/-- What a ref sends when it is detached. -/
def lastWords (detaching : Host × RefId) : List (SessionId × ClientMessage) :=
  match detaching.1.ref? detaching.2 with
  | none => []
  | some declared =>
      if hears detaching then
        detaching.2.messages (detaching.1.detachAnswer detaching.2 declared).1
      else []

variable {host : Host}

/-! ## What refs answer -/

theorem detachRef_of_hears {id : RefId} {declared : RefAttribute}
    (found : host.ref? id = some declared) (heard : hears (host, id) = true) :
    host.detachRef id =
      (host.detachAnswer id declared).2.answerRef id (host.detachAnswer id declared).1 := by
  have alive : host.isContextAlive id.context = true := heard
  have known : Assoc.get? id.path (host.context id.context).refs = some declared := found
  simp only [detachRef, known, alive, if_true]
  rfl

theorem detachRef_of_not_hears {id : RefId} (unheard : hears (host, id) = false) :
    host.detachRef id = host := by
  have dead : host.isContextAlive id.context = false := unheard
  unfold detachRef
  split
  · rfl
  · simp [dead]

/-- By the time a ref is evaluated its stable key stands for nothing. -/
theorem stored?_forgetting {id : RefId} {declared : RefAttribute} {key : String}
    (once : host.StoresOnce id.context) (keyed : declared.key = some key) :
    (host.forgetting id declared).stored? (id.context, key) = none := by
  simp only [forgetting, withKey, keyed, stored?, context_modifyContext, if_true]
  rw [Assoc.get?_erase _ _ once, if_pos rfl]

theorem sent_answerRef (id : RefId) (answer : Value) (host : Host) :
    (host.answerRef id answer).sent = host.sent ++ id.messages answer := by
  unfold answerRef RefId.messages
  split
  · rfl
  · simp_all

theorem sent_detachRef (id : RefId) (host : Host) :
    (host.detachRef id).sent = host.sent ++ lastWords (host, id) := by
  unfold lastWords
  cases found : host.ref? id with
  | none =>
      have unknown : Assoc.get? id.path (host.context id.context).refs = none := found
      simp [detachRef, unknown]
  | some declared =>
      by_cases heard : hears (host, id) = true
      · rw [detachRef_of_hears found heard, sent_answerRef]
        simp only [heard, if_true]
        congr 1
        exact sent_withKey ..
      · rw [detachRef_of_not_hears (by simpa using heard)]
        simp only [heard, Bool.false_eq_true, if_false, List.append_nil]

theorem refsSent_of_sends {P : SessionId × ClientMessage → Prop} {before after : Host}
    (sends : Sends P before after) (none : ∀ message, P message → message.2.isRef = false) :
    after.refsSent = before.refsSent := by
  obtain ⟨messages, sent, spoken⟩ := sends
  have nothing : messages.filter (fun message => message.2.isRef) = [] :=
    List.filter_eq_nil_iff.mpr fun message member => by simp [none message (spoken message member)]
  rw [refsSent, sent, List.filter_append, nothing, List.append_nil]
  rfl

theorem filter_lastWords (detaching : Host × RefId) :
    (lastWords detaching).filter (fun message => message.2.isRef) = lastWords detaching := by
  refine List.filter_eq_self.mpr fun message member => ?_
  unfold lastWords at member
  split at member
  · cases member
  · split at member
    · unfold RefId.messages at member
      split at member
      · rw [List.mem_singleton.mp member]
        rfl
      · cases member
    · cases member

theorem refsSent_runStep (host : Host) (step : Step) :
    (host.runStep step).refsSent =
      host.refsSent ++ (host.detaching? step).toList.flatMap lastWords := by
  cases step with
  | createHandle | syncHandle | release | instantiate | receive =>
      exact (List.append_nil _).symm
  | declare site spine =>
      obtain ⟨contexts, styles, sessions, same, -⟩ := declareAll_eq site spine host
      rw [runStep, same]
      exact (List.append_nil _).symm
  | willUnmount id =>
      refine (refsSent_of_sends (sends_willUnmount id host) ?_).trans (List.append_nil _).symm
      rintro message ⟨state, -, -, -, answer, same⟩
      rw [same]
      rfl
  | detachRef id =>
      rw [runStep, refsSent, sent_detachRef, List.filter_append, filter_lastWords]
      simp [detaching?, refsSent]

theorem refsSent_steps (steps : List Step) (host : Host) :
    (steps.foldl runStep host).refsSent =
      host.refsSent ++ (detachings steps host).flatMap lastWords := by
  induction steps generalizing host with
  | nil => exact (List.append_nil _).symm
  | cons step rest ih =>
      rw [List.foldl_cons, ih, refsSent_runStep, detachings, List.flatMap_append, List.append_assoc]

theorem exists_earlier_of_detaching {steps : List Step} {host : Host} {detaching : Host × RefId}
    (member : detaching ∈ detachings steps host) : ∃ earlier later,
      steps = earlier ++ .detachRef detaching.2 :: later ∧
        detaching.1 = earlier.foldl runStep host := by
  induction steps generalizing host with
  | nil => cases member
  | cons step rest ih =>
      rcases List.mem_append.mp member with now | later
      · obtain ⟨id, detached, rfl⟩ := Option.map_eq_some_iff.mp (Option.mem_toList.mp now)
        refine ⟨[], rest, ?_, rfl⟩
        cases step with
        | detachRef other => rw [Option.some.inj detached]; rfl
        | createHandle | syncHandle | willUnmount | release | instantiate | receive | declare =>
            cases detached
      · obtain ⟨earlier, after, rfl, same⟩ := ih later
        exact ⟨step :: earlier, after, rfl, same⟩

end Host

/-! ## Who is heard -/

theorem Step.mem_releases {steps : List Step} {id : InstanceId} :
    id ∈ Step.releases steps ↔ .release id ∈ steps := by
  rw [Step.releases, List.mem_filterMap]
  constructor
  · rintro ⟨step, member, isThis⟩
    cases step <;> simp_all
  · exact fun member => ⟨_, member, rfl⟩

theorem Loss.mem_releases {steps : List Step} {losses : List Loss}
    (same : steps.filter Step.isLoss = losses.map Loss.step) {id : InstanceId} :
    id ∈ Step.releases steps ↔ ∃ identity, .component identity ∈ losses ∧ identity.id = id := by
  rw [Step.mem_releases]
  constructor
  · intro among
    have isLoss : Step.release id ∈ losses.map Loss.step := by
      rw [← same]
      exact List.mem_filter.mpr ⟨among, rfl⟩
    obtain ⟨loss, lost, isThis⟩ := List.mem_map.mp isLoss
    cases loss with
    | ref => cases isThis
    | component identity => exact ⟨identity, lost, Step.release.inj isThis⟩
  · rintro ⟨identity, lost, rfl⟩
    have among : Step.release identity.id ∈ steps.filter Step.isLoss := by
      rw [same]
      exact List.mem_map_of_mem lost
    exact (List.mem_filter.mp among).1

/-- Everything is taken down by steps, and no session is open. -/
structure TakingDown (host : Host) (instances : List Instance) (steps : List Step) : Prop where
  settled : host.Settled instances
  listening : host.Listening
  current : host.current = none
  created : Step.instantiations steps = []
  released : ∀ identity ∈ instances, (Step.releases steps).count identity.id = 1

namespace TakingDown

variable {host : Host} {instances : List Instance} {steps earlier later : List Step}
  {losses : List Loss}

theorem isHeld_iff (down : TakingDown host instances (earlier ++ later)) {identity : Instance}
    (member : identity ∈ instances) : ∃ standing,
      (earlier.foldl Host.runStep host).standing identity.id = some standing ∧
        standing.identity = identity ∧
        (standing.isHeld = true ↔ identity.id ∈ Step.releases later) := by
  have once := down.released identity member
  have created := down.created
  rw [Step.releases_append, List.count_append] at once
  rw [Step.instantiations_append, List.append_eq_nil_iff] at created
  have stands := Host.standing_steps earlier host identity.id (by simp [created.1])
  rw [down.settled.present identity member, Option.map_some] at stands
  refine ⟨_, stands, ?_, ?_⟩
  · dsimp only
    split <;> split <;> simp
  · have either : identity.id ∈ Step.releases earlier ↔ identity.id ∉ Step.releases later := by
      rw [← List.count_pos_iff, ← List.count_pos_iff]
      omega
    dsimp only
    by_cases gone : identity.id ∈ Step.releases earlier
    · have absent := either.mp gone
      simp [gone, absent, Standing.release]
    · have still : identity.id ∈ Step.releases later := by simpa using either.not.mp gone
      simp only [gone, if_false, still, iff_true]
      unfold Standing.unmount
      split <;> (try split) <;> rfl

theorem listening_earlier (down : TakingDown host instances (earlier ++ later)) :
    (earlier.foldl Host.runStep host).Listening := by
  have created := down.created
  rw [Step.instantiations_append, List.append_eq_nil_iff] at created
  exact down.listening.steps earlier (by simp [created.1]) (by simp [created.1])

theorem mem_of_isHeld (down : TakingDown host instances (earlier ++ later)) {id : InstanceId}
    {standing : Standing} (found : (earlier.foldl Host.runStep host).standing id = some standing)
    (held : standing.isHeld = true) :
    standing.identity ∈ instances ∧ standing.identity.id = id := by
  refine ⟨?_, down.settled.named.steps earlier id standing found⟩
  have created := down.created
  rw [Step.instantiations_append, List.append_eq_nil_iff] at created
  rw [Host.standing_steps earlier host id (by simp [created.1])] at found
  obtain ⟨was, stood, rfl⟩ := Option.map_eq_some_iff.mp found
  have own : was.identity ∈ instances := by
    by_contra gone
    obtain ⟨phase, released⟩ := down.settled.absent id was stood gone
    obtain ⟨-, unmounted, dropped⟩ := Standing.ended phase released
    simp [unmounted, dropped, released] at held
  dsimp only
  split <;> split <;> simpa using own

theorem isSessionAlive_iff (down : TakingDown host instances (earlier ++ later))
    (session : SessionId) :
    (earlier.foldl Host.runStep host).isSessionAlive session = true ↔
      ∃ identity ∈ instances, identity.session = session ∧ identity.id ∈ Step.releases later := by
  have current : (earlier.foldl Host.runStep host).current = none :=
    (Host.Remembers.foldl Host.Remembers.runStep earlier host).current.trans down.current
  rw [Host.isSessionAlive_iff down.listening_earlier.distinct, current]
  constructor
  · rintro (none | ⟨id, standing, found, held, own⟩)
    · cases none
    · obtain ⟨member, named⟩ := down.mem_of_isHeld found held
      obtain ⟨other, stands, -, before⟩ := down.isHeld_iff member
      rw [named, found, Option.some.injEq] at stands
      exact ⟨standing.identity, member, own, before.mp (stands ▸ held)⟩
  · rintro ⟨identity, member, own, later⟩
    obtain ⟨standing, found, same, held⟩ := down.isHeld_iff member
    exact .inr ⟨identity.id, standing, found, held.mpr later, by rw [same, own]⟩

/-- A ref whose instance is still to be let go of is heard, and so is one of no instance as long as
    some instance of its session is. -/
theorem isContextAlive_eq (down : TakingDown host instances (earlier ++ later))
    (lost : later.filter Step.isLoss = losses.map Loss.step)
    (known : ∀ identity, .component identity ∈ losses → identity ∈ instances) {context : ContextId}
    (covered : context.instance? = none ∨
      ∃ identity, .component identity ∈ losses ∧ context = identity.context) :
    (earlier.foldl Host.runStep host).isContextAlive context =
      losses.any (Loss.isOf context.session) := by
  have session : (earlier.foldl Host.runStep host).isSessionAlive context.session =
      losses.any (Loss.isOf context.session) := by
    rw [Bool.eq_iff_iff, down.isSessionAlive_iff, Loss.any_isOf]
    constructor
    · rintro ⟨identity, member, own, released⟩
      obtain ⟨other, isLost, same⟩ := (Loss.mem_releases lost).mp released
      rw [down.settled.eq_of_id (known other isLost) member same] at isLost
      exact ⟨identity, isLost, own⟩
    · rintro ⟨identity, isLost, own⟩
      exact ⟨identity, known identity isLost, own,
        (Loss.mem_releases lost).mpr ⟨identity, isLost, rfl⟩⟩
  rw [Host.isContextAlive, session]
  rcases covered with atRoot | ⟨identity, isLost, rfl⟩
  · rw [atRoot, Bool.and_true]
  · obtain ⟨standing, found, -, held⟩ := down.isHeld_iff (known identity isLost)
    have isHeld := held.mpr ((Loss.mem_releases lost).mpr ⟨identity, isLost, rfl⟩)
    obtain ⟨state, stored, rfl⟩ := Option.map_eq_some_iff.mp found
    have inTree : (earlier.foldl Host.runStep host).isHeld identity.id = true := by
      rw [Host.isHeld, stored]
      exact isHeld
    rw [show identity.context.instance? = some identity.id from rfl]
    simp only [inTree, Bool.and_true]

/-- A ref that is detached next is heard if an instance of its session is lost after it. -/
theorem hears_eq {id : RefId}
    (down : TakingDown host instances (earlier ++ .detachRef id :: later))
    (lost : later.filter Step.isLoss = losses.map Loss.step)
    (known : ∀ identity, .component identity ∈ losses → identity ∈ instances)
    (covered : id.context.instance? = none ∨
      ∃ identity, .component identity ∈ losses ∧ id.context = identity.context) :
    Host.hears (earlier.foldl Host.runStep host, id) =
      losses.any (Loss.isOf id.context.session) := by
  have ahead : (Step.detachRef id :: later).filter Step.isLoss =
      (Loss.ref id :: losses).map Loss.step := congrArg (Step.detachRef id :: ·) lost
  refine down.isContextAlive_eq ahead (fun identity among => ?_) (covered.imp_right ?_)
  · exact known identity ((List.mem_cons.mp among).resolve_left nofun)
  · rintro ⟨identity, among, own⟩
    exact ⟨identity, List.mem_cons_of_mem _ among, own⟩

theorem map_detachings (down : TakingDown host instances steps)
    (lost : steps.filter Step.isLoss = losses.map Loss.step)
    (known : ∀ identity, .component identity ∈ losses → identity ∈ instances)
    (covers : Loss.Covers (·.context.instance? = none) losses) :
    (Host.detachings steps host).map (fun detaching => (detaching.2, Host.hears detaching)) =
      Loss.outlived losses := by
  -- The steps are cut where a ref is detached: the host is known by those before, and what is lost
  -- later by those afterwards.
  suffices all : ∀ later earlier losses, steps = earlier ++ later →
      later.filter Step.isLoss = losses.map Loss.step →
      (∀ identity, .component identity ∈ losses → identity ∈ instances) →
      Loss.Covers (·.context.instance? = none) losses →
      (Host.detachings later (earlier.foldl Host.runStep host)).map
        (fun detaching => (detaching.2, Host.hears detaching)) = Loss.outlived losses from
    all steps [] losses rfl lost known covers
  clear lost known covers
  intro later
  induction later with
  | nil =>
      intro earlier losses _ lost _ _
      rw [List.map_eq_nil_iff.mp lost.symm]
      rfl
  | cons step rest ih =>
      intro earlier losses cut lost known covers
      have onward := ih (earlier ++ [step])
      rw [List.foldl_append, List.append_assoc] at onward
      replace onward := fun losses => onward losses cut
      cases step with
      | createHandle | syncHandle | willUnmount | instantiate | receive | declare =>
          exact onward losses lost known covers
      | release id =>
          obtain ⟨loss, more, rfl, isThis, same⟩ := List.map_eq_cons_iff.mp lost.symm
          cases loss with
          | ref => cases isThis
          | component identity =>
              exact onward more same.symm
                (fun other among => known other (List.mem_cons_of_mem _ among)) covers
      | detachRef id =>
          obtain ⟨loss, more, rfl, isThis, same⟩ := List.map_eq_cons_iff.mp lost.symm
          cases loss with
          | component => cases isThis
          | ref other =>
              obtain rfl := Step.detachRef.inj isThis
              have knownLater : ∀ identity, .component identity ∈ more → identity ∈ instances :=
                fun identity among => known identity (List.mem_cons_of_mem _ among)
              have here : TakingDown host instances (earlier ++ .detachRef _ :: rest) := cut ▸ down
              have heard := here.hears_eq same.symm knownLater covers.1
              have others := onward more same.symm knownLater covers.2
              rw [Loss.outlived, ← heard, ← others]
              rfl

end TakingDown

end RemoteView
