import RemoteView.Proofs.Client.StableKeys
import RemoteView.Proofs.Client.Teardown
import RemoteView.Proofs.Host.Detaching

/-! # Refs at the end of a connection

When a connection ends its session is let go of before the trees are taken down. From then on the
session lives through its instances only, so a ref that belongs to no instance is heard only if an
instance of its session comes after it.
-/

namespace RemoteView

namespace Matching

theorem assign_none {κ α : Type} [DecidableEq κ] (keyOf : α → Option κ) (old : List α) :
    assign keyOf old [none] = ([none], old) ∨
      ∃ first rest, old = first :: rest ∧ keyOf first = none ∧
        assign keyOf old [none] = ([some first], rest) := by
  cases old with
  | nil => exact .inl rfl
  | cons first rest =>
      cases keyed : keyOf first with
      | none =>
          refine .inr ⟨first, rest, rfl, keyed, ?_⟩
          simp [assign, requests, request, keyed, serve]
      | some key =>
          refine .inl ?_
          simp [assign, requests, request, keyed, serve]

theorem assign_nil {κ α : Type} [DecidableEq κ] (keyOf : α → Option κ) (old : List α) :
    assign keyOf old [] = ([], old) := by
  simp [assign, requests, serve]

end Matching

namespace Mounted

theorem losses_of_no_key {site : Site} {index : UInt32} {tree : Mounted}
    (placed : tree.Placed (site.child index)) (none : tree.key = none) :
    tree.losses = [] ∧ tree.unmount = [] := by
  cases tree with
  | empty | text => exact ⟨rfl, rfl⟩
  | element node children => cases placed.1.symm.trans none
  | component identity child => cases placed.2.2.1.symm.trans none

theorem steps_reconcile_text (site : Site) {old : Mounted} (nothing : old.unmount = [])
    (content : String) (supply : Supply) :
    (reconcile site old (.text content) supply).steps = [] := by
  rcases reconcile_eq_replace_or site old (.text content) with ⟨-, replaced⟩ | ⟨-, other⟩ |
    ⟨_, _, rfl, -⟩ | ⟨_, _, _, _, _, _, other, -⟩ | ⟨_, _, _, _, _, _, -, other, -⟩
  · rw [replaced, replace_apply, nothing]
    rfl
  · cases other
  · rfl
  · cases other
  · cases other

theorem filter_isLoss_loading {site : Site} {tree : Mounted} (placed : tree.Placed site)
    (supply : Supply) :
    (reconcile (.root 0) tree loadingSpine supply).steps.filter Step.isLoss =
      tree.losses.map Loss.step := by
  rcases reconcile_eq_replace_or (.root 0) tree loadingSpine with ⟨-, replaced⟩ | ⟨-, other⟩ |
    ⟨_, _, -, other⟩ | ⟨node, oldChildren, tag, children, attributes, rfl, same, kept⟩ |
    ⟨_, _, _, _, _, _, -, other, -⟩
  · have mounted : (mount (.root 0) loadingSpine supply).steps.filter Step.isLoss = [] := by
      rw [loadingSpine, mount_element, mountChildren_cons]
      rfl
    rw [replaced, replace_apply, List.filter_append, filter_isLoss_unmount, mounted,
      List.append_nil]
  · cases other
  · cases other
  · obtain ⟨rfl, rfl, rfl⟩ := Spine.element.inj same
    have inner : (reconcileChildren (.root 0) (Matching.assign key oldChildren
        (childKeys [(0, .text "Loading...")])).1 [(0, .text "Loading...")] supply).steps.filter
          Step.isLoss = [] ∧
        childLosses (Matching.assign key oldChildren (childKeys [(0, .text "Loading...")])).2 =
          childLosses oldChildren := by
      rw [show childKeys [(0, .text "Loading...")] = [none] from rfl]
      rcases Matching.assign_none key oldChildren with none | ⟨first, rest, rfl, keyless, one⟩
      · rw [none]
        exact ⟨rfl, rfl⟩
      · obtain ⟨⟨index, here⟩, -⟩ := placed.2
        obtain ⟨nothing, noSteps⟩ := losses_of_no_key here keyless
        rw [one, childLosses, nothing, reconcileChildren_kept]
        dsimp only
        rw [steps_reconcile_text _ noSteps]
        exact ⟨rfl, rfl⟩
    -- What is shown has no ref, so the ref of the element it takes over is detached.
    have detached : (detachments (if node.props.ref? ≠ none then node.props.ref? else none)).filter
        Step.isLoss = (node.props.ref?.map Loss.ref).toList.map Loss.step := by
      cases node.props.ref? <;> rfl
    rw [loadingSpine, reconcile_element _ kept, losses, List.map_append, ← inner.2,
      ← filter_isLoss_unmountAll, ← detached]
    simp only [List.filter_append, List.filter_cons, inner.1]
    rfl
  · cases other

end Mounted

namespace Client

/-- What the trees lose when the connection ends: first that of the head, then that of the body. -/
def losses (client : Client) : List Loss :=
  Mounted.childLosses client.head ++ client.body.losses

/-- The refs that are detached when the connection ends, each with the host that it leaves. -/
def detachings (client : Client) : List (Host × RefId) :=
  Host.detachings (Deed.steps (client.dropped.deeds .loading)) client.dropped.host

/-- How the refs of a client are detached when its connection ends. -/
structure LetsGo (before after : Client) : Prop where
  /-- Every ref in the trees is detached once. -/
  once : (before.detachings.map Prod.snd).Perm (before.refs.map Prod.fst)
  /-- A ref is heard if an instance of its session is lost after it, and not otherwise. -/
  heard : before.detachings.map (fun detaching => (detaching.2, Host.hears detaching)) =
    Loss.outlived before.losses
  /-- What is lost are the refs and the instances of the trees. -/
  lost : (∀ identity, .component identity ∈ before.losses ↔ identity ∈ before.instances) ∧
    (before.losses.filterMap Loss.ref?).Perm (before.refs.map Prod.fst)
  /-- A ref that belongs to an instance is heard whatever else there is. -/
  inside : ∀ detaching ∈ before.detachings, detaching.2.context.instance? ≠ none →
    Host.hears detaching = true
  /-- A ref that is heard has its key cleared, is evaluated, and has its answer sent. -/
  evaluated : ∀ detaching ∈ before.detachings, Host.hears detaching = true → ∃ declared,
    before.host.ref? detaching.2 = some declared ∧
      (∀ key, declared.key = some key → (detaching.1.forgetting detaching.2 declared).stored?
        (detaching.2.context, key) = none) ∧
      detaching.1.detachRef detaching.2 =
        let (answer, host) := detaching.1.detachAnswer detaching.2 declared
        host.answerRef detaching.2 answer
  /-- Any other ref is passed over, and its key stays what it is. -/
  passedOver : ∀ detaching ∈ before.detachings, Host.hears detaching = false →
    detaching.1.detachRef detaching.2 = detaching.1
  /-- The refs that are heard have spoken in their sessions, and no other ref has. -/
  sent : after.host.refsSent =
    before.host.refsSent ++ before.detachings.flatMap Host.lastWords
  /-- So all are heard exactly if every ref of no instance has an instance of its session after
      it. -/
  all_iff : (∀ detaching ∈ before.detachings, Host.hears detaching = true) ↔
    ∀ earlier id later, before.losses = earlier ++ .ref id :: later →
      id.context.instance? = none →
        ∃ identity, .component identity ∈ later ∧ identity.session = id.context.session

section

variable {past : List Deed} {client : Client}

/-- The steps that take everything down lose what the trees lose, in this order. -/
theorem filter_isLoss_deeds (sound : Sound client) :
    (Deed.steps (client.deeds .loading)).filter Step.isLoss = client.losses.map Loss.step := by
  obtain ⟨session, placed⟩ := sound.body
  have body := Mounted.filter_isLoss_loading placed
    (client.reconcileHead (.root 0) []).host.supply
  have head : (Mounted.reconcileAll (.root 0) client.head [] client.host.supply).steps.filter
      Step.isLoss = (Mounted.childLosses client.head).map Loss.step := by
    rw [← Mounted.filter_isLoss_unmountAll, Mounted.reconcileAll_apply, List.map_nil,
      Matching.assign_nil]
    simp
  rw [deeds, Deed.steps_append, Outcome.steps_deeds, Outcome.steps_deeds, List.filter_append, head,
    body, losses, List.map_append]

theorem mem_losses (identity : Instance) :
    .component identity ∈ client.losses ↔ identity ∈ client.instances := by
  rw [losses, instances, List.mem_append, List.mem_append, Mounted.mem_childLosses_component,
    Mounted.mem_losses_component, or_comm]

theorem perm_refs_losses (client : Client) :
    (client.losses.filterMap Loss.ref?).Perm (client.refs.map Prod.fst) := by
  rw [losses, refs, List.filterMap_append, List.map_append, Mounted.refs_childLosses,
    Mounted.refs_losses]
  exact List.perm_append_comm

/-- A ref that is lost belongs to the root of a session, or to an instance that is lost later. -/
theorem covers_losses (carries : CarriesPaths client) :
    Loss.Covers (·.context.instance? = none) client.losses := by
  have root (tree : Mounted) (isTree : tree ∈ client.body :: client.head) :
      Loss.Covers (·.context.instance? = none) tree.losses := by
    obtain ⟨session, faithful⟩ := carries.exists_faithful isTree
    exact (Mounted.covers_losses faithful.elements).mono fun id own => congrArg _ own
  have head (trees : List Mounted) (among : trees ⊆ client.body :: client.head) :
      Loss.Covers (·.context.instance? = none) (Mounted.childLosses trees) := by
    induction trees with
    | nil => trivial
    | cons tree rest ih =>
        obtain ⟨here, there⟩ := List.cons_subset.mp among
        exact (root tree here).append (ih there)
  exact (head _ (List.subset_cons_self _ _)).append (root _ List.mem_cons_self)

theorem takingDown (run : Run past client) :
    TakingDown client.dropped.host client.instances
      (Deed.steps (client.dropped.deeds .loading)) := by
  have sound := sound_dropped run.sound
  obtain ⟨session, finish, turnover, -⟩ := turnover_render sound.settled .loading
  rw [instances_loading sound] at turnover
  exact {
    settled := sound.settled
    listening := run.listening.congr rfl rfl fun _ forwards => forwards
    current := rfl
    created := (Step.only_of_takesDown (takesDown_deeds_loading _).1).1
    released := fun identity member =>
      (turnover.left sound.settled member List.not_mem_nil).2.2 }

/-- A ref is heard if an instance of its session is lost after it. -/
theorem map_detachings (run : Run past client) :
    client.detachings.map (fun detaching => (detaching.2, Host.hears detaching)) =
      Loss.outlived client.losses :=
  (takingDown run).map_detachings (filter_isLoss_deeds (sound_dropped run.sound))
    (fun identity => (mem_losses identity).mp) (covers_losses run.carriesPaths)

theorem perm_detachings (run : Run past client) :
    (client.detachings.map Prod.snd).Perm (client.refs.map Prod.fst) := by
  have same := congrArg (List.map Prod.fst) (map_detachings run)
  rw [List.map_map, Loss.outlived_fst] at same
  exact (List.Perm.of_eq same).trans (perm_refs_losses client)

theorem declared_of_detaching (run : Run past client) {detaching : Host × RefId}
    (member : detaching ∈ client.detachings) : ∃ declared,
      client.host.ref? detaching.2 = some declared ∧
        detaching.1.ref? detaching.2 = some declared ∧
        detaching.1.StoresOnce detaching.2.context := by
  have knows := run.knowsRefs
  obtain ⟨earlier, later, cut, host⟩ := Host.exists_earlier_of_detaching member
  have among := (perm_detachings run).mem_iff.mp (List.mem_map_of_mem member)
  obtain ⟨one, isRef, same⟩ := List.mem_map.mp among
  obtain ⟨declared, found⟩ := knows.declared one isRef
  rw [same] at found
  refine ⟨declared, found, ?_, ?_⟩
  · rw [host, Host.ref?_steps]
    exact (congrArg (Option.or · _) found).trans Option.some_or
  · rw [host]
    exact Host.storesOnce_steps earlier (knows.once _)

/-- When the connection ends every ref is detached once, and heard if its session lives on. -/
theorem letsGo_disconnect (run : Run past client) {after : Client}
    (same : after.host.sent = client.disconnect.host.sent) : LetsGo client after := by
  have heard := map_detachings run
  have told {detaching : Host × RefId} (member : detaching ∈ client.detachings) :
      (detaching.2, Host.hears detaching) ∈ Loss.outlived client.losses := by
    rw [← heard]
    exact List.mem_map_of_mem member
  refine {
    once := perm_detachings run
    heard := heard
    lost := ⟨mem_losses, perm_refs_losses client⟩
    inside := fun detaching member within => ?_
    evaluated := fun detaching member hears => ?_
    passedOver := fun detaching _ unheard => Host.detachRef_of_not_hears unheard
    sent := ?_
    all_iff := ⟨fun all earlier id later cut _ => ?_, fun each detaching member => ?_⟩ }
  · exact ((covers_losses run.carriesPaths).outlived _ (told member)).resolve_left within
  · obtain ⟨declared, found, still, once⟩ := declared_of_detaching run member
    exact ⟨declared, found, fun key keyed => Host.stored?_forgetting once keyed,
      Host.detachRef_of_hears still hears⟩
  · rw [Host.refsSent, same, host_disconnect]
    exact Host.refsSent_steps _ _
  · have entry : (id, later.any (Loss.isOf id.context.session)) ∈ Loss.outlived client.losses :=
      Loss.mem_outlived.mpr ⟨earlier, later, cut, rfl⟩
    rw [← heard] at entry
    obtain ⟨detaching, member, isThis⟩ := List.mem_map.mp entry
    obtain ⟨-, flag⟩ := Prod.mk.inj isThis
    exact Loss.any_isOf.mp (flag ▸ all detaching member)
  · obtain ⟨earlier, later, cut, flag⟩ := Loss.mem_outlived.mp (told member)
    rcases (covers_losses run.carriesPaths).outlived _ (told member) with atRoot | hears
    · rw [flag]
      exact Loss.any_isOf.mpr (each earlier detaching.2 later cut atRoot)
    · exact hears

end

/-- However a connection ends, every ref is detached once. A ref of an instance has its key cleared
    and is evaluated, and so has one of the root if an instance of its session is lost after it;
    otherwise nothing happens. -/
theorem detached_close_and_fail {client : Client} (reachable : Reachable client) :
    LetsGo client client.close.2 ∧ ∀ reason, LetsGo client (client.fail reason).2 := by
  obtain ⟨past, run⟩ := reachable
  exact ⟨letsGo_disconnect run rfl, fun reason => letsGo_disconnect run rfl⟩

/-- What a ref answers with an action. -/
def answerWith (action : String) : Expr := .refHandler (.literal (.string action))

/-- A paragraph with a stable key that says when it is detached. -/
def tellingParagraph (action : String) : Spine :=
  .element "p" [] [.ref ⟨some action, .nothing, answerWith action⟩]

/-- Paragraphs before, in and after a component. -/
def tellingList : Spine :=
  .element "ul" [(0, tellingParagraph "before"),
    (1, .component 1 "Inner" (tellingParagraph "inside") ⟨[], [], []⟩),
    (2, tellingParagraph "after")] []

/-- The paragraph after the component is not heard, and its key stays. -/
theorem last_paragraph_not_heard :
    let client := (history (showEach [tellingList]) (.new "/" .never)).2
    LetsGo client client.close.2 ∧
      Loss.outlived client.losses = [(⟨.root 0, ⟨[0]⟩⟩, true), (⟨⟨0, some 0⟩, ⟨[1]⟩⟩, true),
        (⟨.root 0, ⟨[2]⟩⟩, false)] ∧
      client.host.refsSent = [] ∧
      client.close.2.host.refsSent = [(0, .ref ⟨[0]⟩ (.string "before")),
        (0, .ref ⟨[1]⟩ (.string "inside"))] := by
  intro client
  have reachable : Reachable client := ⟨_, run_history "/" .never (showEach [tellingList])⟩
  refine ⟨(detached_close_and_fail reachable).1, ?_, ?_, ?_⟩
  · unfold client
    cbv
  · unfold client
    cbv
  · unfold client
    cbv

/-- A ref of the open session that has an action to send may be passed over. -/
theorem exists_detach_not_sent :
    ¬ ∀ client, Reachable client → ∀ session, client.host.current = some session →
      ∀ one ∈ client.refs, one.1.context.session = session → ∀ declared action,
        client.host.ref? one.1 = some declared → declared.detach = answerWith action →
          (session, .ref one.1.path (.string action)) ∈ client.close.2.host.sent := by
  intro always
  let client := (history (showEach [tellingList]) (.new "/" .never)).2
  have reachable : Reachable client := ⟨_, run_history "/" .never (showEach [tellingList])⟩
  have live : client.host.current = some 0 := by
    unfold client
    cbv
  have refs : client.refs =
      [(⟨.root 0, ⟨[0]⟩⟩, 2), (⟨⟨0, some 0⟩, ⟨[1]⟩⟩, 3), (⟨.root 0, ⟨[2]⟩⟩, 4)] := by
    unfold client
    cbv
  have declared : client.host.ref? ⟨.root 0, ⟨[2]⟩⟩ =
      some ⟨some "after", .nothing, answerWith "after"⟩ := by
    unfold client
    cbv
  have sent : client.close.2.host.sent = [(0, .location "/"),
      (0, .ref ⟨[0]⟩ (.string "before")), (0, .ref ⟨[1]⟩ (.string "inside"))] := by
    unfold client
    cbv
  have spoken := always client reachable 0 live (⟨.root 0, ⟨[2]⟩⟩, 4) (by rw [refs]; simp) rfl _
    "after" declared rfl
  rw [sent] at spoken
  simp at spoken

end Client

end RemoteView
