/-
  Subject:   The usage of an Anthropic stream (src/worker/token-usage.ts, `createSseUsageAccumulator`),
             and that it is that of the message the stream describes.

  * `Recounted`, **`recounted_snoc`**: what the accumulator has come to after some documents;
  * **`streamed_tokens`**: when the tokens of the stream are those of the message.
-/
import ClawRouter.Inspect.MessageCounters

namespace ClawRouter.Inspect

open Utf16 Js

/-! ## 1. The message -/

def laterModifier (name : Text) (usage : Members) : Option Value :=
  (modifierText name usage).filter fun value =>
    (nullish (some value)).isSome && !(name == text "inference_geo" && isText (some value) "not_available")

/-- The usage of the message: each counter, each modifier and each bucket as it was reported last. -/
def mergedUsage (first : Members) (later : List Members) : Members :=
  let all := first :: later
  pick counterTexts (fun name => latest (all.map (count name))) ++
    pick [text "server_tool_use"] (fun _ => latest (all.map searches)) ++
    pick modifierTexts (fun name => latest (modifierText name first :: later.map (laterModifier name))) ++
    if all.any fun usage => (creationOf usage).isSome then
      [(text "cache_creation", .obj (pick creationTexts fun name => latest (all.map (bucket name))))]
    else []

theorem counterTexts_apart : ∀ name ∈ counterTexts,
    name ≠ text "cache_creation" ∧ name ∉ modifierTexts ∧ name ≠ text "server_tool_use" := by decide +kernel

variable {name : Text}

theorem laterReport_count (h : name ∈ counterTexts) (usage : Members) :
    laterReport name usage = count name usage := by
  obtain ⟨hcreation, hmodifier, hsearches⟩ := counterTexts_apart name h
  unfold laterReport kept
  rw [if_neg hcreation, if_neg hmodifier, if_neg hsearches, if_pos h]
  unfold count
  cases usage.lookup name with
  | none => rfl
  | some value =>
    rw [Option.filter_some]
    split
    · rename_i hnumeric
      cases value with
      | num n =>
        rw [Option.filter_some, if_pos]
        rw [Bool.and_eq_true]
        refine ⟨rfl, ?_⟩
        cases name == text "inference_geo" <;> rfl
      | _ => cases hnumeric
    · rfl

theorem kept_count (h : name ∈ counterTexts) (usage : Members) : kept name usage = count name usage := by
  obtain ⟨hcreation, hmodifier, hsearches⟩ := counterTexts_apart name h
  unfold kept
  rw [if_neg hcreation, if_neg hmodifier, if_neg hsearches, if_pos h]

theorem kept_searches (usage : Members) : kept (text "server_tool_use") usage = searches usage := by
  unfold kept
  rw [if_neg (by decide), if_neg (by decide), if_pos rfl]

theorem laterReport_searches (usage : Members) :
    laterReport (text "server_tool_use") usage = searches usage := by
  unfold laterReport
  rw [kept_searches]
  unfold searches
  dsimp only
  split
  · rw [Option.filter_some, if_pos]
    rfl
  · rfl

theorem kept_modifier (h : name ∈ modifierTexts) (usage : Members) :
    kept name usage = modifierText name usage := by
  have hapart : ∀ name ∈ modifierTexts, name ≠ text "cache_creation" := by decide
  unfold kept
  rw [if_neg (hapart name h), if_pos h]

theorem laterReport_modifier (h : name ∈ modifierTexts) (usage : Members) :
    laterReport name usage = laterModifier name usage := by
  unfold laterReport laterModifier
  rw [kept_modifier h]

theorem kept_other (hcreation : name ≠ text "cache_creation") (hcount : name ∉ counterTexts)
    (hmodifier : name ∉ modifierTexts) (hsearches : name ≠ text "server_tool_use") (usage : Members) :
    kept name usage = none := by
  unfold kept
  rw [if_neg hcreation, if_neg hmodifier, if_neg hsearches, if_neg hcount]

theorem lookup_mergedUsage (first : Members) (later : List Members) {q : Text}
    (hq : q ≠ text "cache_creation") :
    (mergedUsage first later).lookup q = latest (kept q first :: later.map (laterReport q)) := by
  have hcreation : List.lookup q (if (first :: later).any fun usage => (creationOf usage).isSome then
      [(text "cache_creation", Value.obj (pick creationTexts fun name =>
        latest ((first :: later).map (bucket name))))] else []) = none := by
    split
    · rw [lookup_cons, if_neg hq]
      rfl
    · rfl
  unfold mergedUsage
  rw [lookup_append, lookup_append, lookup_append, lookup_pick, lookup_pick, lookup_pick, hcreation,
    Option.or_none]
  by_cases hcount : q ∈ counterTexts
  · obtain ⟨_, hmodifier, hsearches⟩ := counterTexts_apart q hcount
    rw [if_pos hcount, if_neg hmodifier, if_neg fun h => hsearches (List.mem_singleton.mp h),
      Option.or_none, Option.or_none, kept_count hcount,
      List.map_cons, funext (laterReport_count hcount)]
  · rw [if_neg hcount]
    by_cases hmodifier : q ∈ modifierTexts
    · have hapart : ∀ name ∈ modifierTexts, name ∉ [text "server_tool_use"] := by decide
      rw [if_pos hmodifier, if_neg (hapart q hmodifier), kept_modifier hmodifier,
        funext (laterReport_modifier hmodifier)]
      rfl
    · rw [if_neg hmodifier, Option.or_none]
      by_cases hsearches : q = text "server_tool_use"
      · subst hsearches
        rw [if_pos List.mem_cons_self, kept_searches, List.map_cons, funext laterReport_searches]
        rfl
      · rw [if_neg fun h => hsearches (List.mem_singleton.mp h)]
        have hnone := kept_other hq hcount hmodifier hsearches
        refine (latest_none fun value hvalue => ?_).symm
        obtain rfl | hvalue := List.mem_cons.mp hvalue
        · exact hnone first
        · obtain ⟨usage, _, rfl⟩ := List.mem_map.mp hvalue
          unfold laterReport
          rw [hnone usage]
          rfl

theorem creationOf_mergedUsage (first : Members) (later : List Members) :
    creationOf (mergedUsage first later) =
      if (first :: later).any fun usage => (creationOf usage).isSome then
        some (pick creationTexts fun name => latest ((first :: later).map (bucket name))) else none := by
  have hnot : text "cache_creation" ∉ counterTexts ∧ text "cache_creation" ∉ modifierTexts ∧
      text "cache_creation" ∉ [text "server_tool_use"] := by decide
  have hlookup : get (mergedUsage first later) "cache_creation" =
      if (first :: later).any fun usage => (creationOf usage).isSome then
        some (.obj (pick creationTexts fun name => latest ((first :: later).map (bucket name))))
      else none := by
    show (mergedUsage first later).lookup (text "cache_creation") = _
    unfold mergedUsage
    rw [lookup_append, lookup_append, lookup_append, lookup_pick, lookup_pick, lookup_pick, if_neg hnot.1,
      if_neg hnot.2.1, if_neg hnot.2.2]
    split
    · rw [lookup_cons, if_pos rfl]
      rfl
    · rfl
  show record (get (mergedUsage first later) "cache_creation") = _
  rw [hlookup]
  split <;> rfl

variable {e first start : Members}

theorem held_alike {held : Members} {later : List Members} (h : Held first later held) :
    UsageAlike held (mergedUsage first later) := by
  refine .of_get (fun name hname => ?_) ?_
  · show held.lookup (text name) = (mergedUsage first later).lookup (text name)
    rw [h.latest _ hname, lookup_mergedUsage first later hname]
  · have hmerged := creationOf_mergedUsage first later
    rw [← h.creation] at hmerged
    show RecordLike creationCounters (creationOf held) (creationOf (mergedUsage first later))
    rw [hmerged]
    cases hheld : creationOf held with
    | none => exact .missing
    | some creation =>
      refine .both fun name hname => .of_eq ?_
      have hmem : text name ∈ creationTexts := List.mem_map_of_mem hname
      show creation.lookup (text name) = (pick creationTexts _).lookup (text name)
      rw [h.buckets creation hheld _ hmem, lookup_pick, if_pos hmem]

/-! ## 2. The stream -/

def eventTypes : List String :=
  ["message_delta", "content_block_start", "content_block_delta", "content_block_stop", "ping"]

/-- The documents of a stream, none of which reports an outcome of its own, as an error does. -/
structure MessageStream where
  start : Members
  events : List Members
  stop : Members
  started : isText (get start "type") "message_start" = true
  between : ∀ e ∈ events, eventTypes.any (isText (get e "type")) = true
  stopped : isText (get stop "type") "message_stop" = true
  quiet : ∀ e ∈ start :: events ++ [stop], responseOutcome (some (.obj e)) = none

def isDelta (e : Members) : Bool := isText (get e "type") "message_delta"

def showsContent (e : Members) : Bool :=
  isText (get e "type") "content_block_start" || isText (get e "type") "content_block_delta"

def deltas (events : List Members) : List Members := events.filter isDelta

def laterUsages (events : List Members) : List Members :=
  (deltas events).filterMap fun e => usageRecord (some e)

def reportsOutput (e : Members) : Bool := ((usageRecord (some e)).bind (count (text "output_tokens"))).isSome

def outputReported (events : List Members) : Bool := (deltas events).getLast?.any reportsOutput

def initialMessage (start : Members) : Option Members := record (get start "message")

def lastStopReason (start : Members) (events : List Members) : Option Value :=
  latest ((initialMessage start).bind (get · "stop_reason") ::
    (deltas events).map fun e => (record (get e "delta")).bind (get · "stop_reason"))

/-- The message begins without content, and no event adds any. -/
def contentEmpty (start : Members) (events : List Members) : Bool :=
  (initialMessage start).any emptyContent && !events.any showsContent

namespace MessageStream

variable (s : MessageStream)

def documents : List Members := s.start :: s.events ++ [s.stop]

/-- The message the stream describes; a content that is not empty is of no account. -/
def message : Members :=
  [(text "type", Value.str (text "message"))] ++
    ((lastStopReason s.start s.events).map fun reason => (text "stop_reason", reason)).toList ++
    (if contentEmpty s.start s.events then [(text "content", .arr [])] else []) ++
    [(text "usage", .obj (mergedUsage ((usageRecord (some s.start)).getD []) (laterUsages s.events)))]

end MessageStream

/-! ## 3. The accumulator -/

variable {events : List Members} {a : Accumulator}

section Run

variable (context : Option UsageTokenContext) (revokes : Bool)

def acceptDocuments (a : Accumulator) (documents : List Members) : Accumulator :=
  documents.foldl (fun a e => a.accept context revokes (.data (.obj e))) a

theorem isText_apart {value : Option Value} {a b : String} (h : isText value a = true)
    (hab : text a ≠ text b) :
    isText value b = false := by
  unfold isText at h ⊢
  split at h
  · exact beq_false_of_ne fun hb => hab ((beq_iff_eq.mp h).symm.trans hb)
  · cases h

theorem noteProtocol_same (a : Accumulator) (root : Members) : (a.noteProtocol root).outcome = a.outcome ∧
      (a.noteProtocol root).provisionalRejection = a.provisionalRejection ∧
      (a.noteProtocol root).message = a.message ∧ (a.noteProtocol root).messageUsage = a.messageUsage ∧
      (a.noteProtocol root).messageDeltaSeen = a.messageDeltaSeen := by
  unfold Accumulator.noteProtocol
  dsimp only
  split <;> split <;> split <;> exact ⟨rfl, rfl, rfl, rfl, rfl⟩

theorem accept_quiet (houtcome : a.outcome = none)
    (hprovisional : a.provisionalRejection = false) (hquiet : responseOutcome (some (.obj e)) = none) :
    a.accept context revokes (.data (.obj e)) = (a.noteProtocol e).acceptDocument e context := by
  unfold Accumulator.accept
  simp only [hprovisional, Bool.false_and, Bool.false_eq_true, if_false, houtcome, Option.isSome_none,
    SseUsageEvidence.root, record_obj, hquiet]

theorem seen_reportsOutput (e : Members) :
    (messageCounters (usageRecord (some e))).any (fun delta => (pickNumber delta ["output_tokens"]).isSome) =
      reportsOutput e := by
  unfold reportsOutput
  cases usageRecord (some e) with
  | none => rfl
  | some usage =>
    obtain ⟨counters, hcounters⟩ : ∃ counters, messageCounters (some usage) = some counters :=
      ⟨_, messageCounters_some usage⟩
    have hcount : get counters "output_tokens" = count (text "output_tokens") usage :=
      (lookup_messageCounters hcounters (text "output_tokens")).trans (kept_count (by decide) usage)
    rw [hcounters, Option.any_some, Option.bind_some]
    unfold pickNumber
    rw [List.findSome?_cons, hcount]
    unfold count
    cases usage.lookup (text "output_tokens") with
    | none => rfl
    | some value =>
      rw [Option.filter_some]
      cases hnumeric : numeric (some value) with
      | none => rfl
      | some n => simp only [Option.isSome_some, if_true, hnumeric]

/-- What the accumulator has come to after a start and some events. -/
structure Recounted (start first : Members) (events : List Members) (a : Accumulator) : Prop where
  outcome : a.outcome = none
  provisional : a.provisionalRejection = false
  message : a.message = some ⟨lastStopReason start events, contentEmpty start events⟩
  usage : ∃ held, a.messageUsage = some held ∧ Held first (laterUsages events) held
  seen : a.messageDeltaSeen = outputReported events

theorem accept_start (htype : isText (get start "type") "message_start" = true)
    (hquiet : responseOutcome (some (.obj start)) = none) : ∃ a : Accumulator,
      (createSseUsageAccumulator revokes).accept context revokes (.data (.obj start)) =
        a.acceptDocument start context ∧ a.outcome = none ∧ a.provisionalRejection = false := by
  have hworks : rejectionOnlyEvidence (.data (.obj start)) context = false := by
    unfold rejectionOnlyEvidence
    dsimp only
    split
    · rfl
    · show (isText (get start "type") "message_stop" || responseOutcome (some (.obj start)) == some
        .providerError) = false
      rw [isText_apart htype (by decide), hquiet]
      rfl
  let first := if revokes then (createSseUsageAccumulator revokes).continuedWork else
    createSseUsageAccumulator revokes
  have hfirst : first.outcome = none ∧ first.provisionalRejection = false := by
    cases revokes <;> exact ⟨rfl, rfl⟩
  obtain ⟨houtcome, hprovisional, -, -, -⟩ := noteProtocol_same first start
  refine ⟨first.noteProtocol start, ?_, houtcome.trans hfirst.1, hprovisional.trans hfirst.2⟩
  unfold Accumulator.accept
  rw [hworks]
  cases revokes <;>
    simp only [createSseUsageAccumulator, Accumulator.continuedWork, SseUsageEvidence.root,
      record_obj, hquiet,
      Bool.not_false, Bool.and_true, Bool.false_eq_true, if_false, if_true, Bool.not_true,
        Option.isSome_none, first]

theorem recounted_start (htype : isText (get start "type") "message_start" = true)
    (hquiet : responseOutcome (some (.obj start)) = none) (hfirst : usageRecord (some start) = some first) :
    Recounted start first [] ((createSseUsageAccumulator revokes).accept context revokes
      (.data (.obj start))) := by
  obtain ⟨counters, hcounters⟩ : ∃ counters, messageCounters (some first) = some counters :=
    ⟨_, messageCounters_some first⟩
  obtain ⟨a, haccept, houtcome, hprovisional⟩ := accept_start context revokes htype hquiet
  rw [haccept]
  unfold Accumulator.acceptDocument
  rw [if_pos htype, hfirst, hcounters]
  refine ⟨houtcome, hprovisional, ?_, ⟨counters, rfl, held_start hcounters⟩, rfl⟩
  have hempty : contentEmpty start [] = (initialMessage start).any emptyContent := Bool.and_true _
  have hreason : lastStopReason start [] = (initialMessage start).bind (get · "stop_reason") :=
    latest_singleton _
  rw [hempty, hreason]
  unfold initialMessage emptyContent
  cases record (get start "message") <;> rfl

section

variable (h : Recounted start first events a)
include h

theorem recounted_delta (htype : isDelta e = true) (hquiet : responseOutcome (some (.obj e)) = none) :
    Recounted start first (events ++ [e]) (a.accept context revokes (.data (.obj e))) := by
  obtain ⟨held, husage, hheld⟩ := h.usage
  obtain ⟨houtcome, hprovisional, hmessage, hmessageUsage, -⟩ := noteProtocol_same a e
  have hdeltas : deltas (events ++ [e]) = deltas events ++ [e] := by
    unfold deltas
    rw [List.filter_append, List.filter_cons, if_pos htype]
    rfl
  have hcontent : contentEmpty start (events ++ [e]) = contentEmpty start events := by
    have hnone : showsContent e = false := by
      unfold showsContent
      rw [isText_apart htype (by decide), isText_apart htype (by decide)]
      rfl
    unfold contentEmpty
    rw [List.any_append, List.any_cons, hnone]
    simp only [List.any_nil, Bool.or_false]
  have hreason : lastStopReason start (events ++ [e]) =
      ((record (get e "delta")).bind (get · "stop_reason")).or (lastStopReason start events) := by
    unfold lastStopReason
    rw [hdeltas, List.map_append, ← List.cons_append]
    exact latest_snoc _ _
  have hseen : outputReported (events ++ [e]) = reportsOutput e := by
    unfold outputReported
    rw [hdeltas, List.getLast?_concat]
    rfl
  have hlater : laterUsages (events ++ [e]) = laterUsages events ++ (usageRecord (some e)).toList := by
    unfold laterUsages
    rw [hdeltas, List.filterMap_append, List.filterMap_cons]
    cases usageRecord (some e) <;> rfl
  rw [accept_quiet context revokes h.outcome h.provisional hquiet]
  unfold Accumulator.acceptDocument
  have hstart : isText (get e "type") "message_start" = false := isText_apart htype (by decide)
  have hdelta : isText (get e "type") "message_delta" = true := htype
  simp only [hstart, hdelta, Bool.false_eq_true, if_false, if_true, hmessageUsage, husage, hmessage,
    h.message]
  refine ⟨houtcome.trans h.outcome, hprovisional.trans h.provisional, ?_, ?_, ?_⟩
  · rw [hcontent, hreason]
    cases record (get e "delta") with
    | none => rfl
    | some d =>
      dsimp only [Option.bind_some]
      unfold has
      cases get d "stop_reason" <;> rfl
  · rw [hlater]
    cases hreport : usageRecord (some e) with
    | none =>
      refine ⟨held, rfl, ?_⟩
      rw [Option.toList_none, List.append_nil]
      exact hheld
    | some usage =>
      rw [messageCounters_some]
      exact ⟨_, rfl, held_delta hheld (messageCounters_some usage)⟩
  · rw [hseen]
    exact seen_reportsOutput e

theorem recounted_content (hdelta : isDelta e = false)
    (hstart : isText (get e "type") "message_start" = false)
      (hstop : isText (get e "type") "message_stop" = false)
    (hquiet : responseOutcome (some (.obj e)) = none) :
    Recounted start first (events ++ [e]) (a.accept context revokes (.data (.obj e))) := by
  obtain ⟨houtcome, hprovisional, hmessage, hmessageUsage, hseen⟩ := noteProtocol_same a e
  have hdeltas : deltas (events ++ [e]) = deltas events := by
    unfold deltas
    rw [List.filter_append, List.filter_cons, if_neg (by rw [hdelta]; exact Bool.false_ne_true)]
    exact List.append_nil _
  have hcontent : contentEmpty start (events ++ [e]) = (contentEmpty start events && !showsContent e) := by
    unfold contentEmpty
    rw [List.any_append, List.any_cons, List.any_nil, Bool.or_false, Bool.not_or, Bool.and_assoc]
  have hreason : lastStopReason start (events ++ [e]) = lastStopReason start events := by
    unfold lastStopReason
    rw [hdeltas]
  have hlater : laterUsages (events ++ [e]) = laterUsages events := by
    unfold laterUsages
    rw [hdeltas]
  have houtput : outputReported (events ++ [e]) = outputReported events := by
    unfold outputReported
    rw [hdeltas]
  rw [accept_quiet context revokes h.outcome h.provisional hquiet]
  have hdelta' : isText (get e "type") "message_delta" = false := hdelta
  unfold Accumulator.acceptDocument
  simp only [hstart, hdelta', hstop, Bool.false_eq_true, if_false]
  split
  · rename_i hshows
    have hshown : showsContent e = true := hshows
    refine ⟨houtcome.trans h.outcome, hprovisional.trans h.provisional, ?_, ?_, ?_⟩
    · rw [hmessage, h.message, hreason, hcontent, hshown, Bool.not_true, Bool.and_false]
      rfl
    · rw [hlater]
      exact hmessageUsage ▸ h.usage
    · exact (hseen.trans h.seen).trans houtput.symm
  · rename_i hshows
    have hshown : showsContent e = false := Bool.not_eq_true _ ▸ hshows
    refine ⟨houtcome.trans h.outcome, hprovisional.trans h.provisional, ?_, ?_, ?_⟩
    · rw [hmessage, h.message, hreason, hcontent, hshown, Bool.not_false, Bool.and_true]
    · rw [hlater]
      exact hmessageUsage ▸ h.usage
    · exact (hseen.trans h.seen).trans houtput.symm

/-- **What the accumulator has come to follows the documents.** -/
theorem recounted_snoc (htype : eventTypes.any (isText (get e "type")) = true)
    (hquiet : responseOutcome (some (.obj e)) = none) :
    Recounted start first (events ++ [e]) (a.accept context revokes (.data (.obj e))) := by
  obtain ⟨name, hname, hevent⟩ := List.any_eq_true.mp htype
  have hapart : ∀ name ∈ eventTypes, text name ≠ text "message_start" ∧
    text name ≠ text "message_stop" := by decide
  obtain ⟨hstart, hstop⟩ := hapart name hname
  cases hdelta : isDelta e with
  | true => exact recounted_delta context revokes h hdelta hquiet
  | false =>
    exact recounted_content context revokes h hdelta (isText_apart hevent hstart)
      (isText_apart hevent hstop) hquiet

theorem recounted_run {rest : List Members} (htypes : ∀ e ∈ rest, eventTypes.any
    (isText (get e "type")) = true)
    (hquiet : ∀ e ∈ rest, responseOutcome (some (.obj e)) = none) :
    Recounted start first (events ++ rest) (acceptDocuments context revokes a rest) := by
  induction rest generalizing events a with
  | nil =>
    rw [List.append_nil]
    exact h
  | cons e rest ih =>
    have hnext := recounted_snoc context revokes h (htypes e List.mem_cons_self) (hquiet e List.mem_cons_self)
    have hrun := ih hnext (fun e he => htypes e (List.mem_cons_of_mem _ he))
      fun e he => hquiet e (List.mem_cons_of_mem _ he)
    rw [List.append_assoc] at hrun
    exact hrun

theorem tokens_stop {stop : Members} (htype : isText (get stop "type") "message_stop" = true)
    (hquiet : responseOutcome (some (.obj stop)) = none) (ended overflowed : Bool) :
    ∃ held, Held first (laterUsages events) held ∧
      ((a.accept context revokes (.data (.obj stop))).result ended overflowed).1.tokens =
        if outputReported events then extractUsageTokens (some (.obj (Message.members
            (some ⟨lastStopReason start events, contentEmpty start events⟩) held))) context else none := by
  obtain ⟨held, husage, hheld⟩ := h.usage
  obtain ⟨-, hprovisional, hmessage, hmessageUsage, hseen⟩ := noteProtocol_same a stop
  refine ⟨held, hheld, ?_⟩
  have hstart : isText (get stop "type") "message_start" = false := isText_apart htype (by decide)
  have hdelta : isText (get stop "type") "message_delta" = false := isText_apart htype (by decide)
  have hblock : isText (get stop "type") "content_block_start" = false := isText_apart htype (by decide)
  have hcontent : isText (get stop "type") "content_block_delta" = false := isText_apart htype (by decide)
  rw [accept_quiet context revokes h.outcome h.provisional hquiet]
  unfold Accumulator.acceptDocument
  simp only [hstart, hdelta, hblock, hcontent, htype, Bool.or_self, Bool.false_eq_true, if_false, if_true,
    hmessageUsage, husage, hseen, h.seen, hmessage, h.message]
  unfold Accumulator.result Accumulator.continuedWork
  cases overflowed <;> simp only [hprovisional, h.provisional, Bool.not_false, if_true,
    Bool.false_eq_true, if_false,
    Option.isSome_some]

end

/-- After a start without usage nothing is counted. -/
structure Uncounted (a : Accumulator) : Prop where
  outcome : a.outcome = none
  provisional : a.provisionalRejection = false
  usage : a.messageUsage = none

theorem uncounted_start (htype : isText (get start "type") "message_start" = true)
    (hquiet : responseOutcome (some (.obj start)) = none) (hfirst : usageRecord (some start) = none) :
    Uncounted ((createSseUsageAccumulator revokes).accept context revokes (.data (.obj start))) := by
  obtain ⟨a, haccept, houtcome, hprovisional⟩ := accept_start context revokes htype hquiet
  rw [haccept]
  unfold Accumulator.acceptDocument
  rw [if_pos htype, hfirst]
  exact ⟨houtcome, hprovisional, rfl⟩

theorem uncounted_next (h : Uncounted a) (htype : eventTypes.any (isText (get e "type")) = true)
    (hquiet : responseOutcome (some (.obj e)) = none) :
    Uncounted (a.accept context revokes (.data (.obj e))) := by
  obtain ⟨houtcome, hprovisional, -, husage, -⟩ := noteProtocol_same a e
  obtain ⟨name, hname, hevent⟩ := List.any_eq_true.mp htype
  have hapart : ∀ name ∈ eventTypes, text name ≠ text "message_start" ∧
    text name ≠ text "message_stop" := by decide
  rw [accept_quiet context revokes h.outcome h.provisional hquiet]
  unfold Accumulator.acceptDocument
  simp only [isText_apart hevent (hapart name hname).1, isText_apart hevent (hapart name hname).2,
    Bool.false_eq_true, if_false, husage, h.usage]
  split
  · exact ⟨houtcome.trans h.outcome, hprovisional.trans h.provisional, husage.trans h.usage⟩
  · split <;> exact ⟨houtcome.trans h.outcome, hprovisional.trans h.provisional, rfl⟩

theorem uncounted_run {rest : List Members} (h : Uncounted a)
    (htypes : ∀ e ∈ rest, eventTypes.any (isText (get e "type")) = true)
    (hquiet : ∀ e ∈ rest, responseOutcome (some (.obj e)) = none) :
    Uncounted (acceptDocuments context revokes a rest) := by
  induction rest generalizing a with
  | nil => exact h
  | cons e rest ih =>
    have hnext := uncounted_next context revokes h (htypes e List.mem_cons_self) (hquiet e List.mem_cons_self)
    exact ih hnext (fun e he => htypes e (List.mem_cons_of_mem _ he)) fun e he =>
      hquiet e (List.mem_cons_of_mem _ he)

theorem uncounted_stop (h : Uncounted a) {stop : Members}
    (htype : isText (get stop "type") "message_stop" = true)
    (hquiet : responseOutcome (some (.obj stop)) = none) (ended overflowed : Bool) :
    ((a.accept context revokes (.data (.obj stop))).result ended overflowed).1.tokens = none := by
  obtain ⟨-, hprovisional, -, husage, -⟩ := noteProtocol_same a stop
  rw [accept_quiet context revokes h.outcome h.provisional hquiet]
  unfold Accumulator.acceptDocument
  simp only [isText_apart (b := "message_start") htype (by decide), isText_apart
    (b := "message_delta") htype (by decide),
    isText_apart (b := "content_block_start") htype (by decide),
    isText_apart (b := "content_block_delta") htype (by decide), htype, Bool.or_self,
      Bool.false_eq_true, if_false,
    if_true, husage, h.usage]
  unfold Accumulator.result Accumulator.continuedWork
  cases overflowed <;> simp only [hprovisional, h.provisional, Bool.not_false, if_true,
    Bool.false_eq_true, if_false,
    Option.isSome_some]

end Run

def messageFront (reason : Option Value) (empty : Bool) : Members :=
  [(text "type", Value.str (text "message"))] ++
    (reason.map fun reason => (text "stop_reason", reason)).toList ++
    if empty then [(text "content", .arr [])] else []

def withUsage (reason : Option Value) (empty : Bool) (usage : Members) : Members :=
  messageFront reason empty ++ [(text "usage", .obj usage)]

theorem get_withUsage (reason : Option Value) (empty : Bool) (usage : Members) {name : String}
    (h : text name ≠ text "usage") :
    get (withUsage reason empty usage) name = get (messageFront reason empty) name := by
  show (messageFront reason empty ++ [(text "usage", Value.obj usage)]).lookup (text name) = _
  rw [lookup_append, lookup_cons, if_neg h]
  exact Option.or_none

theorem plain_withUsage (reason : Option Value) (empty : Bool) (usage : Members) :
    Plain (withUsage reason empty usage) := by
  constructor
  · unfold has
    rw [get_withUsage reason empty usage (by decide), get_withUsage reason empty usage (by decide)]
    cases reason <;> cases empty <;> rfl
  · rw [get_withUsage reason empty usage (by decide)]
    cases reason <;> cases empty <;> rfl

theorem usageRecord_withUsage (reason : Option Value) (empty : Bool) (usage : Members) :
    usageRecord (some (withUsage reason empty usage)) = some usage := by
  have hget : get (withUsage reason empty usage) "usage" = some (.obj usage) := by
    cases reason <;> cases empty <;> rfl
  unfold usageRecord
  rw [Option.bind_some, hget]
  rfl

theorem withUsage_alike (reason : Option Value) (empty : Bool) (usage other : Members) :
    RootAlike (withUsage reason empty usage) (withUsage reason empty other) := by
  refine ⟨plain_withUsage _ _ _, plain_withUsage _ _ _, ?_, ?_, ?_⟩
  · rw [get_withUsage _ _ _ (by decide), get_withUsage _ _ _ (by decide)]
  · unfold refused emptyContent
    rw [get_withUsage _ _ usage (by decide), get_withUsage _ _ usage (by decide),
      get_withUsage _ _ usage (by decide),
      get_withUsage _ _ other (by decide), get_withUsage _ _ other (by decide),
        get_withUsage _ _ other (by decide)]
  · have hresponse : get (messageFront reason empty) "response" = none := by
      cases reason <;> cases empty <;> rfl
    unfold tierOf extractServiceTier
    have hroot : ∀ root : Members, (record none <|> some root).bind (get · "service_tier") =
      get root "service_tier" :=
      fun _ => rfl
    rw [get_withUsage _ _ usage (by decide), get_withUsage _ _ other (by decide), hresponse, hroot, hroot,
      get_withUsage _ _ usage (by decide), get_withUsage _ _ other (by decide)]

theorem withUsage_counted (reason : Option Value) (empty : Bool) (usage : Members)
    (context : Option UsageTokenContext) :
    extractUsageTokens (some (.obj (withUsage reason empty usage))) context ≠ none := by
  have hplain := plain_withUsage reason empty usage
  unfold extractUsageTokens
  simp only [record_obj, Option.any_some, hplain.google, Option.bind_some, hplain.unended,
    usageRecord_withUsage, Bool.false_eq_true, if_false, bind]
  split <;> exact Option.some_ne_none _

/-- **When the tokens of a stream are those of its message**: exactly where its start reports a
    usage record and its
last delta the output. Each counter, modifier and cache bucket then counts at its latest report, and
an empty content
and the last reason to stop decide what is billed; otherwise the stream has no tokens, and its message has. -/
theorem streamed_tokens (context : Option UsageTokenContext) (revokes : Bool) (s : MessageStream)
    (ended overflowed : Bool) :
    ((acceptDocuments context revokes (createSseUsageAccumulator revokes) s.documents).result ended
        overflowed).1.tokens = extractUsageTokens (some (.obj s.message)) context ↔
      (usageRecord (some s.start)).isSome = true ∧ outputReported s.events = true := by
  have hquiet : ∀ e ∈ s.events, responseOutcome (some (.obj e)) = none := fun e he =>
    s.quiet e (List.mem_append_left _ (List.mem_cons_of_mem _ he))
  have hstart := s.quiet s.start (List.mem_append_left _ List.mem_cons_self)
  have hstop := s.quiet s.stop (List.mem_append_right _ List.mem_cons_self)
  have hdocuments : acceptDocuments context revokes (createSseUsageAccumulator revokes) s.documents =
      (acceptDocuments context revokes ((createSseUsageAccumulator revokes).accept context revokes
        (.data (.obj s.start))) s.events).accept context revokes (.data (.obj s.stop)) := by
    unfold acceptDocuments MessageStream.documents
    rw [List.foldl_append, List.foldl_cons]
    rfl
  have hcounted : ∀ usage, none ≠ extractUsageTokens (some (.obj (withUsage (lastStopReason s.start s.events)
      (contentEmpty s.start s.events) usage))) context := fun usage =>
        (withUsage_counted _ _ usage context).symm
  rw [hdocuments]
  unfold MessageStream.message
  cases hfirst : usageRecord (some s.start) with
  | none =>
    have hrun := uncounted_run context revokes
      (uncounted_start context revokes s.started hstart hfirst) s.between hquiet
    rw [uncounted_stop context revokes hrun s.stopped hstop]
    exact ⟨fun h => absurd h (hcounted _), fun h => absurd h.1 Bool.false_ne_true⟩
  | some first =>
    have hrun := recounted_run context revokes
      (recounted_start context revokes s.started hstart hfirst) s.between hquiet
    rw [List.nil_append] at hrun
    obtain ⟨held, hheld, htokens⟩ := tokens_stop context revokes hrun s.stopped hstop ended overflowed
    rw [htokens]
    cases outputReported s.events with
    | false => exact ⟨fun h => absurd h (hcounted _), fun h => absurd h.2 Bool.false_ne_true⟩
    | true =>
      refine ⟨fun _ => ⟨rfl, rfl⟩, fun _ => ?_⟩
      exact extract_alike (withUsage_alike _ _ held (mergedUsage first (laterUsages s.events)))
        (usageRecord_withUsage _ _ _) (usageRecord_withUsage _ _ _) (held_alike hheld) context

/-! ## 4. Two streams -/

def counted (name : String) (n : Rat) : Text × Value := (text name, .num (.finite n))

def deltaOf (usage : Members) : Members :=
  [(text "type", .str (text "message_delta")), (text "usage", .obj usage)]

/-- A stream of 10 tokens in and 20 out, with more deltas after the one that reports them. -/
def streamOf (message : Members) (more : List Members)
    (htypes : ∀ e ∈ more, eventTypes.any (isText (get e "type")) = true)
    (hquiet : ∀ e ∈ more, responseOutcome (some (.obj e)) = none)
    (hstart : responseOutcome (some (.obj [(text "type", .str (text "message_start")),
      (text "message", .obj message)])) = none) : MessageStream where
  start := [(text "type", .str (text "message_start")), (text "message", .obj message)]
  events := deltaOf [counted "output_tokens" 20] :: more
  stop := [(text "type", .str (text "message_stop"))]
  started := rfl
  between := List.forall_mem_cons.mpr ⟨by decide, htypes⟩
  stopped := by decide
  quiet := by
    intro e he
    simp only [List.cons_append, List.mem_cons, List.mem_append, List.not_mem_nil, or_false] at he
    obtain rfl | rfl | he | rfl := he
    · exact hstart
    · decide
    · exact hquiet e he
    · decide

def startUsage : Members := [(text "usage", .obj [counted "input_tokens" 10, counted "output_tokens" 1])]

/-- The last delta says why the message stopped, and nothing of the unchanged output. -/
def reasonLast : MessageStream :=
  streamOf startUsage [[(text "type", .str (text "message_delta")),
    (text "delta", .obj [(text "stop_reason", .str (text "end_turn"))])]] (by decide) (by decide) (by decide)

def bareStart : MessageStream := streamOf [] [] (by decide) (by decide) (by decide)

/-- A delta that reports the output is enough for the tokens to be those of the message. -/
def Agrees (s : MessageStream) : Prop :=
  s.events.any (fun e => isDelta e && reportsOutput e) = true →
    ((acceptDocuments none false (createSseUsageAccumulator false) s.documents).result true false).1.tokens =
      extractUsageTokens (some (.obj s.message)) none

/-- It is not, where a later delta leaves the output out or the start has no usage. -/
theorem unreported_output : ¬ Agrees reasonLast ∧ ¬ Agrees bareStart := by
  refine ⟨fun h => ?_, fun h => ?_⟩
  · exact absurd (h (by decide +kernel)) (by decide +kernel)
  · exact absurd (h (by decide +kernel)) (by decide +kernel)

end ClawRouter.Inspect
