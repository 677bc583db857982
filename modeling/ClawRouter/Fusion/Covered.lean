/-
  Subject:   The reservation of a fusion request covers its synthesizer, and advisers write no markers.

  The bodies of a run and of the reservation are one body with another instruction in its messages. The
  searches of the estimate find nothing in an instruction, so the two differ in their size alone.

  * **`synthesizer_covered`**: what is priced and reserved;
  * **`markers_counted`**: as many markers as proposals, whatever the advisers wrote;
  * **`fusion_covered`**: both, of every run.
-/
import ClawRouter.Fusion.Estimate
import ClawRouter.Fusion.Sizes

namespace ClawRouter.Fusion

open Utf16 PlainJson Decimal Replace Pricing
open Js (Json)

/-! ## 1. An instruction among the messages -/

section Searches

variable {front back : List (String × Json)} {value other : Json}

theorem get?_beside (name : String) (h : name ≠ "messages") :
    (Json.obj (front ++ ("messages", value) :: back)).get? name =
      (Json.obj (front ++ ("messages", other) :: back)).get? name := by
  have hname : (name == "messages") = false := beq_eq_false_iff_ne.mpr h
  simp only [Json.get?, List.lookup_append, List.lookup_cons, hname]

variable (front back value other) in
theorem get?_messages : (∃ v, (Json.obj (front ++ ("messages", value) :: back)).get? "messages" = some v ∧
        (Json.obj (front ++ ("messages", other) :: back)).get? "messages" = some v) ∨
      ((Json.obj (front ++ ("messages", value) :: back)).get? "messages" = some value ∧
        (Json.obj (front ++ ("messages", other) :: back)).get? "messages" = some other) := by
  simp only [Json.get?, List.lookup_append, List.lookup_cons]
  cases front.lookup "messages" with
  | some v => exact .inl ⟨v, rfl, rfl⟩
  | none => exact .inr ⟨rfl, rfl⟩

theorem anyObject_beside {p : List (String × Json) → Bool}
    (hp : p (front ++ ("messages", value) :: back) = p (front ++ ("messages", other) :: back))
    (h : value.anyObject p = other.anyObject p) :
    (Json.obj (front ++ ("messages", value) :: back)).anyObject p =
      (Json.obj (front ++ ("messages", other) :: back)).anyObject p := by
  rw [Json.anyObject, Json.anyObject, hp, Json.anyObjectMembers_eq, Json.anyObjectMembers_eq,
    List.any_append, List.any_append,
    List.any_cons, List.any_cons, h]

end Searches

def instructionView (content : String) : Json := .obj [("role", .str "system"), ("content", .str content)]

theorem anyObject_insert {p : List (String × Json) → Bool} {content : String}
    (h : p [("role", .str "system"), ("content", .str content)] = false) (xs ys : List Json) :
    (Json.arr (xs ++ instructionView content :: ys)).anyObject p = (Json.arr (xs ++ ys)).anyObject p := by
  have hinstruction : (instructionView content).anyObject p = false := by
    unfold instructionView
    rw [Json.anyObject, h]
    rfl
  rw [Json.anyObject, Json.anyObject, Json.anyObjectItems_eq, Json.anyObjectItems_eq,
    List.any_append, List.any_append,
    List.any_cons, hinstruction, Bool.false_or]

theorem someItem_insert {test : Json → InlineImageBound → Bool × InlineImageBound} {item : Json}
    (h : ∀ images, test item images = (false, images)) (xs ys : List Json) (images : InlineImageBound) :
    someItem test (xs ++ item :: ys) images = someItem test (xs ++ ys) images := by
  induction xs generalizing images with
  | nil => rw [List.nil_append, someItem, h, List.nil_append]
  | cons x xs ih =>
    rw [List.cons_append, List.cons_append, someItem, someItem]
    split
    · rfl
    · exact ih _

theorem insertion_reads (c : Json → Option InlineImageBound) (front back : List (String × Json))
    (xs ys : List Json)
    (content : String) : Reads c (.obj (front ++ ("messages", .arr (xs ++ ys)) :: back))
      (.obj (front ++ ("messages", .arr (xs ++ instructionView content :: ys)) :: back)) where
  sealed := by
    unfold responsesHasOpaqueInput
    rw [get?_beside "input" (by decide)]
  unbounded := by
    intro countImages
    have htest : ∀ images, messageHasUnboundedInput c countImages (instructionView content) images =
      (false, images) := by
      intro images
      cases countImages <;> rfl
    have hmessages := get?_messages front back (.arr (xs ++ ys)) (.arr (xs ++ instructionView content :: ys))
    have hsome : someItem (messageHasUnboundedInput c countImages)
          (Json.items ((Json.obj (front ++ ("messages", .arr (xs ++ ys)) :: back)).get? "messages")) ⟨0, 0⟩ =
        someItem (messageHasUnboundedInput c countImages)
          (Json.items ((Json.obj (front ++ ("messages", .arr
            (xs ++ instructionView content :: ys)) :: back)).get?
            "messages")) ⟨0, 0⟩ := by
      obtain ⟨v, h, h'⟩ | ⟨h, h'⟩ := hmessages
      · rw [h, h']
      · rw [h, h']
        exact (someItem_insert htest xs ys _).symm
    have hkeys : (["previous_response_id", "conversation", "prompt"].any fun key =>
          Json.present ((Json.obj (front ++ ("messages", .arr (xs ++ ys)) :: back)).get? key)) =
        ["previous_response_id", "conversation", "prompt"].any fun key =>
          Json.present ((Json.obj (front ++ ("messages", .arr
            (xs ++ instructionView content :: ys)) :: back)).get?
            key) := by
      simp only [List.any_cons, List.any_nil]
      rw [get?_beside "previous_response_id" (by decide), get?_beside "conversation" (by decide),
        get?_beside "prompt" (by decide)]
    unfold requestHasUnboundedInput
    rw [hsome, hkeys, get?_beside "input" (by decide), get?_beside "tools" (by decide)]
  output := by
    intro limits endpoint
    have hfield : ∀ name, nonNegativeInteger ((Json.obj
      (front ++ ("messages", .arr (xs ++ ys)) :: back)).get? name) =
        nonNegativeInteger
          ((Json.obj (front ++ ("messages", .arr (xs ++ instructionView content :: ys)) ::
            back)).get? name) := by
      intro name
      by_cases hname : name = "messages"
      · subst hname
        obtain ⟨v, h, h'⟩ | ⟨h, h'⟩ := get?_messages front back (.arr (xs ++ ys))
          (.arr (xs ++ instructionView content :: ys))
        · rw [h, h']
        · rw [h, h']
          rfl
      · rw [get?_beside name hname]
    unfold outputTokenBound
    simp only [hfield]
  tier := get?_beside "service_tier" (by decide)
  oneHour := by
    refine anyObject_beside ?_ (anyObject_insert rfl xs ys).symm
    have hcontrol : (front ++ ("messages", Json.arr (xs ++ ys)) :: back).lookup "cache_control" =
        (front ++ ("messages", Json.arr (xs ++ instructionView content :: ys)) :: back).lookup
          "cache_control" :=
      get?_beside "cache_control" (by decide)
    rw [hcontrol]
  cacheControl := by
    refine anyObject_beside ?_ (anyObject_insert rfl xs ys).symm
    rw [List.any_append, List.any_append, List.any_cons, List.any_cons]

theorem Reads.trans {c : Json → Option InlineImageBound} {a b d : Json} (h : Reads c a b) (h' : Reads c b d) :
    Reads c a d :=
  ⟨h.sealed.trans h'.sealed, fun i => (h.unbounded i).trans (h'.unbounded i),
    fun l e => (h.output l e).trans (h'.output l e), h.tier.trans h'.tier, h.oneHour.trans h'.oneHour,
    h.cacheControl.trans h'.cacheControl⟩

/-! ## 2. The bodies of a run -/

theorem viewItems_append (xs ys : List (Option Value)) :
    viewItems (xs ++ ys) = viewItems xs ++ viewItems ys := by
  induction xs with
  | nil => rfl
  | cons item xs ih =>
    cases item with
    | none => exact congrArg (Json.null :: ·) ih
    | some item => exact congrArg (view item :: ·) ih

theorem viewMembers_append (xs ys : Members) : viewMembers (xs ++ ys) = viewMembers xs ++ viewMembers ys := by
  induction xs with
  | nil => rfl
  | cons m xs ih =>
    obtain ⟨key, value⟩ := m
    cases value with
    | none => exact ih
    | some value => exact congrArg ((scalarText key, view value) :: ·) ih

theorem setMember_split (key : Text) (members : Members) :
    ∃ front back, ∀ value, setMember key value members = front ++ (key, some value) :: back := by
  induction members with
  | nil => exact ⟨[], [], fun _ => rfl⟩
  | cons m members ih =>
    obtain ⟨k, v⟩ := m
    by_cases hk : k = key
    · exact ⟨[], members, fun value => by rw [setMember, if_pos hk]; rfl⟩
    · obtain ⟨front, back, h⟩ := ih
      exact ⟨(k, v) :: front, back, fun value => by rw [setMember, if_neg hk, h]; rfl⟩

theorem setMember_same {key : Text} {value : Value} {members : Members}
    (h : members.lookup key = some (some value)) :
    setMember key value members = members := by
  induction members with
  | nil => cases h
  | cons m members ih =>
    obtain ⟨k, v⟩ := m
    rw [List.lookup_cons] at h
    by_cases hk : k = key
    · subst hk
      rw [beq_self_eq_true] at h
      cases h
      rw [setMember, if_pos rfl]
    · rw [beq_eq_false_iff_ne.mpr fun e => hk e.symm] at h
      rw [setMember, if_neg hk, ih h]

theorem lookup_setMember {key other : Text} (hne : other ≠ key) (value : Value) (members : Members) :
    (setMember key value members).lookup other = members.lookup other := by
  induction members with
  | nil =>
    rw [setMember, List.lookup_cons, beq_eq_false_iff_ne.mpr hne]
  | cons m members ih =>
    obtain ⟨k, v⟩ := m
    by_cases hk : k = key
    · rw [setMember, if_pos hk, List.lookup_cons, List.lookup_cons, hk, beq_eq_false_iff_ne.mpr hne]
    · rw [setMember, if_neg hk, List.lookup_cons, List.lookup_cons, ih]

/-- The body of a run: the same whatever the proposals, or one with the instruction put among its messages. -/
theorem buildAggregatorBody_cases (original : Members) (config : FusionConfig) :
    (∃ body, ∀ proposals, buildAggregatorBody original config proposals = body) ∨ ∃ front back xs ys,
        buildAggregatorBody original config [] = front ++
          (Js.text "messages", some (.arr (xs ++ ys))) :: back ∧
        ∀ proposals, proposals ≠ [] → buildAggregatorBody original config proposals =
          front ++ (Js.text "messages", some (.arr
            (xs ++ some (fusionInstruction proposals) :: ys))) :: back := by
  unfold buildAggregatorBody
  split
  · rename_i messages hmessages
    by_cases hvalid : fusionMessagesValid (some (.arr messages)) = true
    · right
      obtain ⟨front, back, hsplit⟩ := setMember_split (Js.text "messages")
        (setMember (Js.text "model") (.str config.aggregatorModel) original)
      have hlookup : (setMember (Js.text "model") (.str config.aggregatorModel) original).lookup
        (Js.text "messages") =
          some (some (.arr messages)) := by
        rw [lookup_setMember (by decide)]
        exact Option.join_eq_some_iff.mp hmessages
      refine ⟨front, back, messages.takeWhile systemMessage, messages.dropWhile systemMessage, ?_, ?_⟩
      · rw [List.isEmpty_nil, Bool.true_or, if_pos rfl, List.takeWhile_append_dropWhile, ← hsplit]
        exact (setMember_same hlookup).symm
      · intro proposals hsome
        have hempty : proposals.isEmpty = false := by
          cases proposals with
          | nil => exact absurd rfl hsome
          | cons p proposals => rfl
        rw [hempty, hvalid, Bool.not_true, Bool.or_false, if_neg Bool.false_ne_true, hsplit]
        rfl
    · left
      refine ⟨setMember (Js.text "model") (.str config.aggregatorModel) original, fun proposals => if_pos ?_⟩
      rw [Bool.eq_false_iff.mpr hvalid, Bool.not_false, Bool.or_true]
  · exact .inl ⟨_, fun _ => rfl⟩

theorem bodyBytes_eq (endpoint : Option PricingEndpoint) (body : Value) :
    bodyBytes endpoint body = valueBytes body := by
  unfold bodyBytes
  split
  · exact Body.jsonBodyBytes_eq body
  · rfl

theorem view_messages (front back : Members) (items : List (Option Value)) :
    view (.obj (front ++ (Js.text "messages", some (.arr items)) :: back)) =
      .obj (viewMembers front ++ ("messages", .arr (viewItems items)) :: viewMembers back) := by
  have hkey : scalarText (Js.text "messages") = "messages" := by decide
  rw [view, viewMembers_append, viewMembers, hkey, view]

theorem view_instruction (proposals : List FusionProposal) :
    view (fusionInstruction proposals) = instructionView (scalarText (instructionText proposals)) := by
  have hrole : scalarText (Js.text "role") = "role" := by decide
  have hcontent : scalarText (Js.text "content") = "content" := by decide
  have hsystem : scalarText (Js.text "system") = "system" := by decide
  simp only [fusionInstruction, view, viewMembers, hrole, hcontent, hsystem, instructionView]

variable {proposals : List FusionProposal}

/-- **The synthesizer's body is priced exactly if the reservation's is, and reserves no more.** -/
theorem synthesizer_covered (c : Json → Option InlineImageBound) (config : FusionConfig) (original : Members)
    (h : Answered config.maxProposalChars (fusionAdviserModels config) proposals) (pricing : TokenPricing)
    (endpoint : Option PricingEndpoint) :
    (estimateModelCost c pricing (.obj (buildAggregatorBody original config proposals))
      endpoint).reserveMicros ≤
        (estimateModelCost c pricing (.obj (buildAggregatorBody original config
          (buildFusionReservationProposals config))) endpoint).reserveMicros ∧
      (estimateModelCost c pricing (.obj (buildAggregatorBody original config proposals))
        endpoint).pricingAvailable =
        (estimateModelCost c pricing (.obj (buildAggregatorBody original config
          (buildFusionReservationProposals config))) endpoint).pricingAvailable := by
  have hbound := fusionAdviserModels_length config
  obtain ⟨body, hbody⟩ | ⟨front, back, xs, ys, hbare, hwith⟩ := buildAggregatorBody_cases original config
  · rw [hbody, hbody]
    exact ⟨Nat.le_refl _, rfl⟩
  · have hreads : ∀ proposals, Reads c (view (.obj
      (front ++ (Js.text "messages", some (.arr (xs ++ ys))) :: back)))
        (view (.obj (front ++ (Js.text "messages",
          some (.arr (xs ++ some (fusionInstruction proposals) :: ys))) :: back))) := by
      intro proposals
      rw [view_messages, view_messages, viewItems_append, viewItems_append, viewItems, view_instruction]
      exact insertion_reads c _ _ _ _ _
    by_cases hnone : buildFusionReservationProposals config = []
    · -- without advisers there is no proposal either
      have hmodels : fusionAdviserModels config = [] := List.map_eq_nil_iff.mp hnone
      rw [hmodels] at h
      cases h
      rw [hnone]
      exact ⟨Nat.le_refl _, rfl⟩
    · rw [hwith _ hnone]
      by_cases hsome : proposals = []
      · rw [hsome, hbare]
        refine estimate_mono (hreads _) ?_ pricing
        rw [bodyBytes_eq, bodyBytes_eq]
        exact valueBytes_obj_mono _ _ _ (valueBytes_arr_insert _ _ _)
      · rw [hwith _ hsome]
        refine estimate_mono ((hreads proposals).symm.trans (hreads _)) ?_ pricing
        rw [bodyBytes_eq, bodyBytes_eq]
        exact valueBytes_obj_mono _ _ _ (valueBytes_arr_mono _ _ (instruction_le h hbound hsome))

/-! ## 3. Markers -/

def cutUnits : Text := [0x0a, 0x28, 0x29, 0x31, 0x32, 0x33, 0x34]

/-- What the template and the adviser's text have of a marker. -/
structure MarkerOf (needle : Text) : Prop where
  cuts : ∀ u ∈ cutUnits, u ∉ needle
  letter : 0x41 ∈ needle
  blank : 0x20 ∈ needle
  written : occurrences needle (Js.text "--- BEGIN ADVISER ") + occurrences needle
    (Js.text "--- END ADVISER ") = 1
  cleaned : ∀ content, occurrences needle (withoutMarkers content) = 0

theorem cutUnits_absent {needle : Text} (h : (cutUnits.all fun u => !needle.contains u) = true) :
    ∀ u ∈ cutUnits, u ∉ needle := by
  intro u hu hmem
  have habsent := List.all_eq_true.mp h u hu
  rw [List.contains_iff_mem.mpr hmem] at habsent
  cases habsent

theorem markerOf_begin : MarkerOf beginMarker where
  cuts := cutUnits_absent (by decide)
  letter := by decide
  blank := by decide
  written := by decide
  cleaned := by
    intro content
    have hquiet := replaceAll_quiet beginMarker_ne marked_begin (by decide)
      (quiet_of_clashes (by decide)) content
    exact occurrences_quiet ((replaceAll_marked endMarker_ne marked_end _).quiet (by decide) hquiet)

theorem markerOf_end : MarkerOf endMarker where
  cuts := cutUnits_absent (by decide)
  letter := by decide
  blank := by decide
  written := by decide
  cleaned := fun _ => occurrences_quiet
    (replaceAll_quiet endMarker_ne marked_end (by decide) (quiet_of_clashes (by decide)) _)

namespace MarkerOf

variable {needle : Text} (h : MarkerOf needle)

include h

theorem ne_nil : needle ≠ [] := List.ne_nil_of_mem h.letter

theorem block {index : Nat} (hindex : index < maxAdvisers) (proposal : FusionProposal) :
    occurrences needle (adviserBlock index proposal) = 1 := by
  obtain ⟨d, hd, hdecimal⟩ := decimal_digit hindex
  have hdigit : d ∉ needle := h.cuts d (by
    rcases List.mem_cons.mp hd with rfl | hd
    · decide
    · exact List.mem_cons_of_mem _ (List.mem_cons_of_mem
        _ (List.mem_cons_of_mem _ (List.mem_cons_of_mem _ hd))))
  have hnewline : 0x0a ∉ needle := h.cuts 0x0a (by decide)
  -- the pieces of a block, cut before symbols that are not in the marker
  have hblock : adviserBlock index proposal = Js.text "--- BEGIN ADVISER " ++ d :: ([0x20] ++ 0x28 ::
      (adviserLabel proposal.model ++ 0x29 ::
        (Js.text " ---" ++ 0x0a :: (withoutMarkers proposal.content ++ 0x0a ::
        (Js.text "--- END ADVISER " ++ d :: Js.text " ---"))))) := by
    have hleft : Js.text " (" = [0x20, 0x28] := by decide
    have hright : Js.text ") ---\n" = 0x29 :: (Js.text " ---" ++ [0x0a]) := by decide
    have hclose : Js.text "\n--- END ADVISER " = 0x0a :: Js.text "--- END ADVISER " := by decide
    unfold adviserBlock
    rw [hdecimal, hleft, hright, hclose]
    simp only [List.append_assoc, List.cons_append, List.nil_append]
  have hnumber : occurrences needle (d :: [0x20]) = 0 := occurrences_missing h.letter (by
      intro hmem
      rcases List.mem_cons.mp hmem with e | hmem
      · exact hdigit (e ▸ h.letter)
      · exact absurd hmem (by decide))
  have hlabel : occurrences needle (0x28 :: adviserLabel proposal.model) = 0 :=
    occurrences_missing h.blank (by
      intro hmem
      rcases List.mem_cons.mp hmem with e | hmem
      · exact absurd e (by decide)
      · exact (adviserLabel_plain _ _ hmem).2 rfl)
  have hright : occurrences needle (0x29 :: Js.text " ---") = 0 := occurrences_missing h.letter (by decide)
  have hcontent : occurrences needle (0x0a :: withoutMarkers proposal.content) = 0 := by
    have hskip : occurrences needle ([0x0a] ++ withoutMarkers proposal.content) = _ :=
      occurrences_skip h.ne_nil (fun u hu => (List.mem_singleton.mp hu) ▸ hnewline) _
    exact hskip.trans (h.cleaned _)
  have hclose : occurrences needle (0x0a :: Js.text "--- END ADVISER ") =
      occurrences needle (Js.text "--- END ADVISER ") := by
    have hskip : occurrences needle ([0x0a] ++ Js.text "--- END ADVISER ") = _ :=
      occurrences_skip h.ne_nil (fun u hu => (List.mem_singleton.mp hu) ▸ hnewline) _
    exact hskip
  have hlast : occurrences needle (d :: Js.text " ---") = 0 :=
    occurrences_missing h.letter (by
      intro hmem
      rcases List.mem_cons.mp hmem with e | hmem
      · exact hdigit (e ▸ h.letter)
      · exact absurd hmem (by decide))
  have hwritten := h.written
  rw [hblock, occurrences_cut hdigit, ← List.cons_append, occurrences_cut (h.cuts 0x28 (by decide)), hnumber,
    ← List.cons_append, occurrences_cut (h.cuts 0x29 (by decide)), hlabel, ← List.cons_append,
    occurrences_cut hnewline, hright, ← List.cons_append, occurrences_cut hnewline,
      hcontent, ← List.cons_append,
    occurrences_cut hdigit, hclose, hlast]
  omega

theorem joined {separator : Text} (hne : separator ≠ []) (hs : ∀ u ∈ separator, u ∉ needle)
    (texts : List Text) :
    occurrences needle (joinWith separator texts) = (texts.map (occurrences needle)).sum := by
  induction texts with
  | nil => rfl
  | cons t rest ih =>
    cases rest with
    | nil => exact (Nat.add_zero _).symm
    | cons t' rest =>
      have hskip := occurrences_skip h.ne_nil hs (joinWith separator (t' :: rest))
      cases separator with
      | nil => exact absurd rfl hne
      | cons u separator =>
        rw [joinWith, List.append_assoc, List.cons_append, occurrences_cut (hs u List.mem_cons_self),
          ← List.cons_append, hskip, ih]
        · rfl
        · exact List.cons_ne_nil t' rest

theorem blocks_count {index : Nat} (hle : index + proposals.length ≤ maxAdvisers) :
    ((blocks index proposals).map (occurrences needle)).sum = proposals.length := by
  induction proposals generalizing index with
  | nil => rfl
  | cons proposal proposals ih =>
    rw [List.length_cons] at hle
    have hindex : index < maxAdvisers := by omega
    have hfirst := h.block hindex proposal
    have hnext : index + 1 + proposals.length ≤ maxAdvisers := by omega
    have hrest := ih hnext
    show occurrences needle (adviserBlock index proposal) +
      ((blocks (index + 1) proposals).map (occurrences needle)).sum = proposals.length + 1
    rw [hfirst, hrest, Nat.add_comm]

/-- **As many markers as proposals, whatever the advisers wrote.** -/
theorem markers_counted (hle : proposals.length ≤ maxAdvisers) :
    occurrences needle (instructionText proposals) = proposals.length := by
  have hnewline : ∀ u ∈ Js.text "\n", u ∉ needle := by
    intro u hu
    exact h.cuts u (List.mem_cons.mpr (.inl (List.mem_singleton.mp hu)))
  have hbreak : ∀ u ∈ Js.text "\n\n", u ∉ needle := by
    intro u hu
    have hu : u ∈ ([0x0a, 0x0a] : Text) := hu
    simp only [List.mem_cons, List.not_mem_nil, or_false, or_self] at hu
    exact h.cuts u (List.mem_cons.mpr (.inl hu))
  have hlines : ∀ t ∈ instructionLines, occurrences needle t = 0 := by
    intro t ht
    exact occurrences_missing h.letter fun hmem => (instructionLines_plain t ht _ hmem).2 rfl
  have hadvisory : occurrences needle (advisoryText proposals) = proposals.length := by
    have hplace : 0 + proposals.length ≤ maxAdvisers := by omega
    have hcount := h.blocks_count hplace
    exact (h.joined (by decide) hbreak _).trans hcount
  have hnone : (instructionLines.map (occurrences needle)).sum = 0 := by
    rw [List.map_congr_left hlines]
    rfl
  unfold instructionText
  rw [h.joined (by decide) hnewline, List.map_append, List.sum_append, hnone, List.map_singleton,
    List.sum_singleton,
    hadvisory, Nat.zero_add]

end MarkerOf

/-! ## 4. A run -/

/-- The model that a fusion selects. -/
structure Selected where
  providerId : Text
  modelId : Option Text
  capability : Text
  deriving DecidableEq

/-- What a fusion reserves for a model. -/
structure ReservedBudget where
  selected : Selected
  cost : CostEstimate

/-- The test before `fusion_reservation_invalid` (src/worker/proxy.ts). -/
def reservationInvalid (reservedBudget : ReservedBudget) (selection : Selected)
    (cost : CostEstimate) : Bool :=
  reservedBudget.selected.providerId != selection.providerId || reservedBudget.selected.modelId !=
    selection.modelId ||
    reservedBudget.selected.capability != selection.capability ||
    decide (reservedBudget.cost.reserveMicros < cost.reserveMicros)

/-- The estimate of the body with some proposals. -/
def synthesizerCost (c : Json → Option InlineImageBound) (config : FusionConfig) (original : Members)
    (pricing : TokenPricing) (endpoint : Option PricingEndpoint) (proposals : List FusionProposal) :
    CostEstimate :=
  estimateModelCost c pricing (.obj (buildAggregatorBody original config proposals)) endpoint

/-- **The reservation covers the synthesizer of every run, and no adviser writes a marker.** -/
theorem fusion_covered (c : Json → Option InlineImageBound) (config : FusionConfig) (original : Members)
    (answers : Nat → Option Value) (pricing : TokenPricing) (endpoint : Option PricingEndpoint)
      (selection : Selected) :
    let proposals := collectFusionProposals config answers
    let cost := synthesizerCost c config original pricing endpoint proposals
    let reservedCost := synthesizerCost c config original pricing endpoint
      (buildFusionReservationProposals config)
    cost.reserveMicros ≤ reservedCost.reserveMicros ∧
      (cost.pricingAvailable = true ↔ reservedCost.pricingAvailable = true) ∧
      reservationInvalid ⟨selection, reservedCost⟩ selection cost = false ∧
      occurrences beginMarker (instructionText proposals) = proposals.length ∧
      occurrences endMarker (instructionText proposals) = proposals.length := by
  intro proposals cost reservedCost
  have hanswered := collected_answered config answers
  obtain ⟨hle, hpriced⟩ := synthesizer_covered c config original hanswered pricing endpoint
  have hcount : proposals.length ≤ maxAdvisers :=
    hanswered.length_le.trans (fusionAdviserModels_length config)
  refine ⟨hle, ?_, ?_, markerOf_begin.markers_counted hcount, markerOf_end.markers_counted hcount⟩
  · exact Bool.eq_iff_iff.mp hpriced
  · unfold reservationInvalid
    rw [bne_self_eq_false, bne_self_eq_false, bne_self_eq_false]
    exact decide_eq_false (Nat.not_lt.mpr hle)

end ClawRouter.Fusion
