import RemoteView.Config
import RemoteView.Proofs.Failing
import RemoteView.Proofs.Text.Natural
import Mathlib.Data.List.DropRight
import Mathlib.Data.List.TakeDrop
import Mathlib.Data.List.TakeWhile

/-! # Which configurations are accepted

Only the address and the reconnect policy can be refused, in this order. Everything else has a
default to fall back on, so a configuration that is accepted can be run with: its queue holds
something, its times pass, and what cannot be opened again is not tried again.
-/

namespace RemoteView

theorem Text.trimChars_eq_nil {text : List Char} :
    trimChars text = [] ↔ ∀ c ∈ text, isBlank c := by
  show (text.dropWhile isBlank).rdropWhile isBlank = [] ↔ _
  rw [List.rdropWhile_eq_nil_iff]
  constructor
  · intro blank c found
    rw [← List.takeWhile_append_dropWhile (p := isBlank) (l := text), List.mem_append] at found
    exact found.elim List.mem_takeWhile_imp (blank c)
  · exact fun blank c found => blank c ((List.dropWhile_sublist _).subset found)

theorem Text.trim_eq_empty {raw : String} : trim raw = "" ↔ ∀ c ∈ raw.toList, isBlank c := by
  rw [trim, String.ofList_eq_empty_iff, trimChars_eq_nil]

namespace Config

/-- A host, the last colon and a number of 16 bits. -/
def IsAddress (address : String) : Prop :=
  ∃ host port : String, address = host ++ ":" ++ port ∧ host ≠ "" ∧ ':' ∉ port.toList ∧
    ∃ n < 65536, Text.IsNumeral port n

/-- An address is given that is not blank and, without the blanks at its ends, is none. -/
def IsMalformed (given : Option String) (address : String) : Prop :=
  ∃ raw, given = some raw ∧ (∃ c ∈ raw.toList, ¬ Text.isBlank c) ∧ address = Text.trim raw ∧
    ¬ IsAddress address

/-- A policy is given that is none, whatever its case and the blanks at its ends. -/
def IsUnknown (given : Option String) (raw : String) : Prop :=
  given = some raw ∧ (Text.trim raw).toLower ∉ ["always", "on-close", "on_close", "never"]

/-- A configuration that can be run with. -/
structure IsSound (config : Config) : Prop where
  queueCapacity : 1 ≤ config.queueCapacity
  reconnectDelay : 1 ≤ config.reconnectDelay
  frameInterval : 1 ≤ config.frameInterval
  initialLocation : ∃ rest, config.initialLocation = "/" ++ rest
  reconnect : config.endpoint = .stdio → config.reconnect = .never

/-! ## The address -/

theorem splitLastColon?_eq_some {text host port : List Char} :
    splitLastColon? text = some (host, port) ↔ text = host ++ ':' :: port ∧ ':' ∉ port := by
  rw [splitLastColon?, List.span_eq_takeWhile_dropWhile]
  constructor
  · intro split
    -- In the reversed text, what the first colon parts is what the last one parts in the text.
    have whole := List.takeWhile_append_dropWhile (p := (· ≠ ':')) (l := text.reverse)
    cases found : text.reverse.dropWhile (· ≠ ':') with
    | nil => rw [found] at split; cases split
    | cons c before =>
        have colon := List.head_dropWhile_not (· ≠ ':') (found ▸ List.cons_ne_nil c before)
        simp only [found, List.head_cons, decide_eq_false_iff_not, Decidable.not_not] at colon
        subst colon
        rw [found] at split whole
        cases split
        constructor
        · calc text
            _ = (text.reverse.takeWhile (· ≠ ':') ++ ':' :: before).reverse := by
                rw [whole, List.reverse_reverse]
            _ = _ := by
                rw [List.reverse_append, List.reverse_cons, List.append_assoc,
                  List.singleton_append]
        · intro late
          have other := List.mem_takeWhile_imp (List.mem_reverse.mp late)
          exact of_decide_eq_true other rfl
  · rintro ⟨rfl, last⟩
    have noColon : ∀ c ∈ port.reverse, decide (c ≠ ':') := fun c found =>
      decide_eq_true fun colon => last (colon ▸ List.mem_reverse.mp found)
    rw [List.reverse_append, List.reverse_cons, List.append_assoc, List.singleton_append,
      List.takeWhile_append_of_pos noColon, List.dropWhile_append_of_pos noColon,
      List.takeWhile_cons_of_neg (by simp), List.dropWhile_cons_of_neg (by simp)]
    simp only [List.append_nil, List.reverse_reverse]

theorem isAddress_iff {address : String} :
    IsAddress address ↔ ∃ host number, splitLastColon? address.toList = some (host, number) ∧
      host ≠ [] ∧ (Text.toUInt16? (String.ofList number)).isSome := by
  simp only [splitLastColon?_eq_some, Text.isSome_toUInt16?]
  constructor
  · rintro ⟨host, port, rfl, someHost, last, isPort⟩
    refine ⟨host.toList, port.toList, ⟨?_, last⟩, ?_, ?_⟩
    · rw [String.toList_append, String.toList_append, List.append_assoc]
      rfl
    · rwa [Ne, String.toList_eq_nil_iff]
    · rwa [String.ofList_toList]
  · rintro ⟨host, port, ⟨split, last⟩, someHost, isPort⟩
    refine ⟨String.ofList host, String.ofList port, ?_, ?_, ?_, isPort⟩
    · rw [← String.toList_inj, split]
      simp
    · rwa [Ne, String.ofList_eq_empty_iff]
    · rwa [String.toList_ofList]

theorem parseAddress_eq_error {raw : String} {error : ConfigError} :
    parseAddress raw = .error error ↔
      ¬ IsAddress (Text.trim raw) ∧ error = .invalidAddress (Text.trim raw) := by
  rw [isAddress_iff, parseAddress]
  cases split : splitLastColon? (Text.trim raw).toList with
  | none => simp [@eq_comm _ error]
  | some parts =>
      obtain ⟨host, number⟩ := parts
      simp only [Option.some.injEq, Prod.mk.injEq, and_assoc, exists_and_left, exists_eq_left']
      split
      · next good => simp [good]
      · next bad => simp [bad, @eq_comm _ error]

theorem failure?_endpointOf {given : Option String} {error : ConfigError} :
    failure? (endpointOf given) = some error ↔
      ∃ address, IsMalformed given address ∧ error = .invalidAddress address := by
  cases given with
  | none => simp [endpointOf, failure?, IsMalformed]
  | some raw =>
      simp only [endpointOf, Option.filter_some, IsMalformed, Option.some.injEq, exists_eq_left']
      by_cases blank : Text.trim raw = ""
      · have noneLeft : ¬ ∃ c ∈ raw.toList, ¬ Text.isBlank c := by
          simpa using Text.trim_eq_empty.mp blank
        simp only [blank, ne_eq, not_true_eq_false, decide_false, Bool.false_eq_true, if_false,
          failure?, reduceCtorEq, noneLeft, false_and, exists_false]
      · have notBlank : ∃ c ∈ raw.toList, ¬ Text.isBlank c := by
          simpa [Text.trim_eq_empty] using blank
        rw [if_pos (decide_eq_true blank)]
        simp only [failure?_map, failure?_eq_some, parseAddress_eq_error, notBlank, true_and,
          and_assoc, exists_eq_left]

/-! ## The policy -/

theorem parsePolicy_eq_error {raw : String} {error : ConfigError} :
    ReconnectPolicy.parse raw = .error error ↔
      (Text.trim raw).toLower ∉ ["always", "on-close", "on_close", "never"] ∧
        error = .unknownReconnectPolicy raw := by
  rw [ReconnectPolicy.parse]
  generalize (Text.trim raw).toLower = word
  simp only [List.mem_cons, List.not_mem_nil, or_false]
  split_ifs with always onClose never
  · simp [always]
  · simp [← or_assoc, onClose]
  · simp [never]
  · simp only [always, never, not_or.mp onClose, or_self, not_false_eq_true, true_and,
      Except.error.injEq]
    exact eq_comm

theorem failure?_requestedPolicy {given : Option String} {error : ConfigError} :
    failure? (requestedPolicy given) = some error ↔
      ∃ raw, IsUnknown given raw ∧ error = .unknownReconnectPolicy raw := by
  cases given with
  | none => simp [requestedPolicy, failure?, IsUnknown]
  | some raw =>
      simp only [requestedPolicy, failure?_map, failure?_eq_some, parsePolicy_eq_error, IsUnknown,
        Option.some.injEq, and_assoc, exists_eq_left']

/-! ## Numbers and the location -/

theorem positive?_getD {given : Option String} {n : UInt64} (positive : 1 ≤ n) :
    1 ≤ (positive? given).getD n := by
  cases read : positive? given with
  | none => exact positive
  | some m =>
      obtain ⟨-, notZero⟩ := Option.filter_eq_some_iff.mp read
      have above : m ≠ 0 := of_decide_eq_true notZero
      show 1 ≤ m
      grind

theorem location_startsWith {given : Option String} :
    ∃ rest, (given.filter (·.startsWith "/")).getD "/" = "/" ++ rest := by
  cases found : given.filter (·.startsWith "/") with
  | none => exact ⟨"", rfl⟩
  | some location =>
      obtain ⟨-, starts⟩ := Option.filter_eq_some_iff.mp found
      obtain ⟨rest, split⟩ := String.startsWith_string_iff.mp starts
      exact ⟨String.ofList rest, by simpa [← String.toList_inj] using split.symm⟩

/-! ## The configuration -/

theorem failure?_ofLookup (lookup : String → Option String) :
    failure? (ofLookup lookup) =
      (failure? (endpointOf (lookup Setting.address.variableName))).or
        (failure? (requestedPolicy (lookup Setting.reconnect.variableName))) :=
  failure?_bind fun _ _ => failure?_bind_pure ..

theorem isSound_of_ofLookup {lookup : String → Option String} {config : Config}
    (accepted : ofLookup lookup = .ok config) : config.IsSound := by
  obtain ⟨endpoint, -, accepted⟩ := Except.bind_eq_ok.mp accepted
  obtain ⟨requested, -, accepted⟩ := Except.bind_eq_ok.mp accepted
  cases accepted
  exact {
    queueCapacity := positive?_getD (by decide)
    reconnectDelay := positive?_getD (by decide)
    frameInterval := positive?_getD (by decide)
    initialLocation := location_startsWith
    reconnect := fun stdio => congrArg (policyFor requested) stdio }

/-- Configuration fails for the address, looked at first, or else for the reconnect policy, be it
    used or not, and for nothing else that the variables say; what is accepted can be run with. -/
theorem refused_iff_malformed_or_unknown (lookup : String → Option String) :
    (∀ error, ofLookup lookup = .error error ↔
      (∃ address, IsMalformed (lookup Setting.address.variableName) address ∧
        error = .invalidAddress address) ∨
      (∀ address, ¬ IsMalformed (lookup Setting.address.variableName) address) ∧
        ∃ raw, IsUnknown (lookup Setting.reconnect.variableName) raw ∧
          error = .unknownReconnectPolicy raw) ∧
    (∀ other : String → Option String,
      other Setting.address.variableName = lookup Setting.address.variableName →
      other Setting.reconnect.variableName = lookup Setting.reconnect.variableName →
      failure? (ofLookup other) = failure? (ofLookup lookup)) ∧
    ∀ config, ofLookup lookup = .ok config → config.IsSound := by
  refine ⟨fun error => ?_, fun other sameAddress samePolicy => ?_, fun config accepted => ?_⟩
  · have notMalformed : failure? (endpointOf (lookup Setting.address.variableName)) = none ↔
        ∀ address, ¬ IsMalformed (lookup Setting.address.variableName) address := by
      simp only [Option.eq_none_iff_forall_ne_some, Ne, failure?_endpointOf, not_exists, not_and]
      exact ⟨fun none address malformed => none _ address malformed rfl,
        fun none _ address malformed => absurd malformed (none address)⟩
    rw [← failure?_eq_some, failure?_ofLookup, Option.or_eq_some_iff, notMalformed,
      failure?_endpointOf, failure?_requestedPolicy]
  · rw [failure?_ofLookup, failure?_ofLookup, sameAddress, samePolicy]
  · exact isSound_of_ofLookup accepted

/-- Variables without a number that can be used. -/
def garbledNumbers (name : String) : Option String :=
  List.lookup name [
    (Setting.address.variableName, " localhost:4000"),
    (Setting.reconnect.variableName, "On_Close "),
    (Setting.queueCapacity.variableName, "0"),
    (Setting.reconnectDelay.variableName, "-5"),
    (Setting.frameInterval.variableName, "18446744073709551616"),
    (Setting.location.variableName, "home")]

/-- Zero, a sign and an overflow fall back on the defaults, and no number at all does the same. -/
theorem garbled_numbers_fall_back :
    ofLookup garbledNumbers =
      .ok { default with endpoint := .address "localhost:4000", reconnect := .onClose } ∧
    IsSound { default with endpoint := .address "localhost:4000", reconnect := .onClose } ∧
    failure? (ofLookup fun name =>
        if name = Setting.queueCapacity.variableName then none else garbledNumbers name) =
      failure? (ofLookup garbledNumbers) := by
  obtain ⟨-, alike, sound⟩ := refused_iff_malformed_or_unknown garbledNumbers
  have accepted : ofLookup garbledNumbers =
      .ok { default with endpoint := .address "localhost:4000", reconnect := .onClose } := by
    decide +kernel
  exact ⟨accepted, sound _ accepted, alike _ (if_neg (by decide)) (if_neg (by decide))⟩

end Config

end RemoteView
