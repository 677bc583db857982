/-
  Subject:   How many bytes a fusion request has, and that the proposals of a reservation make it largest.

  A unit costs at most `unitBytes` inside a JSON string, and exactly that in ASCII. NUL costs six bytes, and no
  unit costs more; what is written over a marker is as long as the marker.

  * **`instruction_le`**: the instruction with them is no larger than the one reserved for.
-/
import ClawRouter.Body.Chunks
import ClawRouter.Fusion.Bodies

namespace ClawRouter.Fusion

open Utf16 PlainJson Decimal Replace Body

/-! ## 1. Weights -/

def unitBytes (u : UInt16) : Nat := (encode (quotePoint (.unit u))).length

def weight (t : Text) : Nat := (t.map unitBytes).sum

theorem weight_append (xs ys : Text) : weight (xs ++ ys) = weight xs + weight ys := by
  unfold weight
  rw [List.map_append, List.sum_append]

theorem weight_cons (u : UInt16) (t : Text) : weight (u :: t) = unitBytes u + weight t := rfl

theorem unitBytes_le (u : UInt16) : unitBytes u ≤ 6 := encode_quotePoint_le (.unit u)

theorem weight_le (t : Text) : weight t ≤ 6 * t.length := by
  induction t with
  | nil => exact Nat.le_refl 0
  | cons u t ih =>
    have hu := unitBytes_le u
    rw [weight_cons, List.length_cons]
    omega

theorem weight_nul (n : Nat) : weight (List.replicate n 0) = 6 * n := by
  induction n with
  | zero => rfl
  | succ n ih =>
    have hnul : unitBytes 0 = 6 := by decide
    rw [List.replicate_succ, weight_cons, ih, hnul]
    omega

theorem letterEscapes_plain : ∀ e ∈ letterEscapes, isSurrogate e.1 = false := by
  have hall : (letterEscapes.all fun e => decide (isSurrogate e.1 = false)) = true := by decide
  exact fun e he => of_decide_eq_true (List.all_eq_true.mp hall e he)

theorem unitBytes_surrogate {u : UInt16} (h : isSurrogate u = true) : unitBytes u = 6 := by
  have hfind : letterEscapes.find? (·.1 == u) = none := by
    rw [List.find?_eq_none]
    intro e he hu
    have hplain := letterEscapes_plain e he
    rw [eq_of_beq hu, h] at hplain
    cases hplain
  have hescape : quotePoint (.unit u) = unicodeEscape u := by
    simp only [quotePoint, hfind, h, Bool.or_true, if_true]
  unfold unitBytes
  rw [hescape, (unicodeEscape_ascii u).encode_length]
  rfl

theorem encode_quoted_cons (p : Point) (t : Text) :
    (encode (quotePoint p ++ quoteBody t)).length = (encode (quotePoint p)).length +
      (encode (quoteBody t)).length := by
  rw [encode_append ((quotePoint_whole p).cut _), List.length_append]

theorem quoted_le_weight (t : Text) : (encode (quoteBody t)).length ≤ weight t := by
  induction t using points.induct with
  | case1 => exact Nat.le_refl 0
  | case2 u =>
    have hunit := encode_quoted_cons (.unit u) []
    show (encode (quotePoint (.unit u) ++ quoteBody [])).length ≤ _
    rw [hunit]
    exact Nat.le_refl _
  | case3 u v rest hpair ih =>
    have hbody : quoteBody (u :: v :: rest) = quotePoint (.pair u v hpair) ++ quoteBody rest := by
      unfold quoteBody
      rw [points, dif_pos hpair, List.flatMap_cons]
    have hle := encode_length_le (quotePoint (.pair u v hpair))
    have hlength : (quotePoint (.pair u v hpair)).length = 2 := rfl
    obtain ⟨hlead, htrail⟩ := Bool.and_eq_true_iff.mp hpair
    have hu : unitBytes u = 6 := unitBytes_surrogate (by unfold isSurrogate; rw [hlead, Bool.true_or])
    have hv : unitBytes v = 6 := unitBytes_surrogate (by unfold isSurrogate; rw [htrail, Bool.or_true])
    rw [hbody, encode_quoted_cons, weight_cons, weight_cons, hu, hv]
    omega
  | case4 u v rest hpair ih =>
    have hbody : quoteBody (u :: v :: rest) = quotePoint (.unit u) ++ quoteBody (v :: rest) := by
      unfold quoteBody
      rw [points, dif_neg hpair, List.flatMap_cons]
    rw [hbody, encode_quoted_cons, weight_cons]
    exact Nat.add_le_add_left ih _

theorem quoted_eq_weight {t : Text} (h : Ascii t) : (encode (quoteBody t)).length = weight t := by
  induction t using points.induct with
  | case1 => rfl
  | case2 u => exact encode_quoted_cons (.unit u) []
  | case3 u v rest hpair ih =>
    rw [isLead_ascii (h u List.mem_cons_self), Bool.false_and] at hpair
    cases hpair
  | case4 u v rest hpair ih =>
    have hbody : quoteBody (u :: v :: rest) = quotePoint (.unit u) ++ quoteBody (v :: rest) := by
      unfold quoteBody
      rw [points, dif_neg hpair, List.flatMap_cons]
    rw [hbody, encode_quoted_cons, weight_cons, ih fun x hx => h x (List.mem_cons_of_mem u hx)]
    rfl

/-! ## 2. Bytes of values -/

def valueBytes (value : Value) : Nat := (encode (stringify value)).length

theorem totalBytes_append (xs ys : List Text) : totalBytes (xs ++ ys) = totalBytes xs + totalBytes ys := by
  unfold totalBytes
  rw [List.map_append, List.sum_append]

theorem itemTexts_append (xs ys : List (Option Value)) :
    itemTexts (xs ++ ys) = itemTexts xs ++ itemTexts ys := by
  induction xs with
  | nil => rfl
  | cons item xs ih =>
    cases item with
    | none => exact congrArg (nullText :: ·) ih
    | some item => exact congrArg (stringify item :: ·) ih

theorem memberTexts_append (xs ys : Members) : memberTexts (xs ++ ys) = memberTexts xs ++ memberTexts ys := by
  induction xs with
  | nil => rfl
  | cons m xs ih =>
    obtain ⟨key, value⟩ := m
    cases value with
    | none => exact ih
    | some value => exact congrArg ((quote key ++ colon :: stringify value) :: ·) ih

theorem valueBytes_arr (items : List (Option Value)) :
    valueBytes (.arr items) = 2 + ((items.length - 1) + totalBytes (itemTexts items)) := by
  unfold valueBytes
  rw [stringify, encode_bracketed (by decide) (by decide) (joined_whole itemTexts_whole),
    encode_joined itemTexts_whole,
    itemTexts_length]

theorem valueBytes_obj (members : Members) :
    valueBytes (.obj members) = 2 + (((memberTexts members).length - 1) + totalBytes
      (memberTexts members)) := by
  unfold valueBytes
  rw [stringify, encode_bracketed (by decide) (by decide) (joined_whole memberTexts_whole),
    encode_joined memberTexts_whole]

theorem valueBytes_str (s : Text) : valueBytes (.str s) = (encode (quoteBody s)).length + 2 := by
  unfold valueBytes
  rw [stringify, encode_quote, List.length_cons, List.length_append, List.length_singleton]

theorem valueBytes_obj_mono (front back : Members) (key : Text) {value other : Value}
    (h : valueBytes value ≤ valueBytes other) :
    valueBytes (.obj (front ++ (key, some value) :: back)) ≤ valueBytes
      (.obj (front ++ (key, some other) :: back)) := by
  have htext : ∀ value, (encode (quote key ++ colon :: stringify value)).length =
      (encode (quote key)).length + (1 + valueBytes value) := by
    intro value
    unfold valueBytes
    rw [encode_append ((quote_whole key).cut _), List.length_append, encode_cons_ascii (by decide),
      Nat.add_comm 1]
  rw [valueBytes_obj, valueBytes_obj, memberTexts_append, memberTexts_append, memberTexts, memberTexts,
    totalBytes_append, totalBytes_append, totalBytes_cons, totalBytes_cons, htext, htext, List.length_append,
    List.length_append, List.length_cons, List.length_cons]
  omega

theorem valueBytes_arr_mono (front back : List (Option Value)) {item other : Value}
    (h : valueBytes item ≤ valueBytes other) :
    valueBytes (.arr (front ++ some item :: back)) ≤ valueBytes (.arr (front ++ some other :: back)) := by
  unfold valueBytes at h
  rw [valueBytes_arr, valueBytes_arr, itemTexts_append, itemTexts_append, itemTexts, itemTexts,
    totalBytes_append,
    totalBytes_append, totalBytes_cons, totalBytes_cons, List.length_append, List.length_append,
      List.length_cons,
    List.length_cons]
  omega

theorem valueBytes_arr_insert (front back : List (Option Value)) (item : Value) :
    valueBytes (.arr (front ++ back)) ≤ valueBytes (.arr (front ++ some item :: back)) := by
  rw [valueBytes_arr, valueBytes_arr, itemTexts_append, itemTexts_append, itemTexts, totalBytes_append,
    totalBytes_append, totalBytes_cons, List.length_append, List.length_append, List.length_cons]
  omega

/-! ## 3. The proposals of some of the advisers -/

inductive Answered (chars : Nat) : List Text → List FusionProposal → Prop
  | nil : Answered chars [] []
  | failed {model : Text} {models : List Text} {proposals : List FusionProposal}
      (rest : Answered chars models proposals) : Answered chars (model :: models) proposals
  | answered {model content : Text} {models : List Text} {proposals : List FusionProposal}
      (short : content.length ≤ chars) (rest : Answered chars models proposals) :
      Answered chars (model :: models) (⟨model, content⟩ :: proposals)

variable {chars index : Nat}
variable {models : List Text}
variable {proposals : List FusionProposal}

theorem Answered.length_le (h : Answered chars models proposals) : proposals.length ≤ models.length := by
  induction h with
  | nil => exact Nat.le_refl 0
  | failed _ ih => exact Nat.le_succ_of_le ih
  | answered _ _ ih => exact Nat.succ_le_succ ih

theorem answered_of_zip (chars : Nat) (answers : Nat → Option Value) (models : List Text) (index : Nat) :
    Answered chars models ((models.zipIdx index).filterMap fun (model, index) =>
      (answers index).bind fun value =>
        let content := Js.trim (completionText value)
        if content = [] then none else some ⟨model, content.take chars⟩) := by
  induction models generalizing index with
  | nil => exact .nil
  | cons model models ih =>
    have hrest := ih (index + 1)
    rw [List.zipIdx_cons, List.filterMap_cons]
    split
    · exact .failed hrest
    · rename_i proposal hproposal
      obtain ⟨value, _, hkept⟩ := Option.bind_eq_some_iff.mp hproposal
      dsimp only at hkept
      split at hkept
      · cases hkept
      · cases hkept
        exact .answered (List.length_take_le _ _) hrest

theorem collected_answered (config : FusionConfig) (answers : Nat → Option Value) :
    Answered config.maxProposalChars (fusionAdviserModels config) (collectFusionProposals config answers) :=
  answered_of_zip _ _ _ 0

/-! ## 4. Blocks -/

theorem marked_begin : Marked 0x2d beginMarker (Js.text "BEGIN-ADVISER") := by
  unfold Marked
  decide

theorem marked_end : Marked 0x2d endMarker (Js.text "END-ADVISER") := by
  unfold Marked
  decide

theorem withoutMarkers_length (content : Text) : (withoutMarkers content).length = content.length := by
  have hbegin := (replaceAll_marked beginMarker_ne marked_begin content).length_eq
  have hend := (replaceAll_marked endMarker_ne marked_end
    (replaceAll beginMarker (Js.text "BEGIN-ADVISER") beginMarker_ne content)).length_eq
  exact hend.symm.trans hbegin.symm

theorem withoutMarkers_nul (n : Nat) : withoutMarkers (List.replicate n 0) = List.replicate n 0 := by
  have habsent : ∀ {d : UInt16}, d ≠ 0 → d ∉ List.replicate n (0 : UInt16) := by
    intro d hd hmem
    exact hd (List.eq_of_mem_replicate hmem)
  unfold withoutMarkers
  rw [replaceAll_absent (d := 0x42) rfl (habsent (by decide)), replaceAll_absent (d := 0x45) rfl
    (habsent (by decide))]

theorem decimal_digit (h : index < maxAdvisers) :
    ∃ d ∈ ([0x31, 0x32, 0x33, 0x34] : Text), decimal (index + 1) = [d] := by
  have hsmall : index + 1 < 10 := by
    unfold maxAdvisers at h
    omega
  rw [decimal, if_pos hsmall]
  have hcases : index = 0 ∨ index = 1 ∨ index = 2 ∨ index = 3 := by
    unfold maxAdvisers at h
    omega
  rcases hcases with rfl | rfl | rfl | rfl
  · exact ⟨0x31, by decide, by decide⟩
  · exact ⟨0x32, by decide, by decide⟩
  · exact ⟨0x33, by decide, by decide⟩
  · exact ⟨0x34, by decide, by decide⟩

theorem weight_digit : ∀ d ∈ ([0x31, 0x32, 0x33, 0x34] : Text), weight [d] = 1 ∧ d.toNat < 128 := by
  have hall : (([0x31, 0x32, 0x33, 0x34] : Text).all fun d => decide
    (weight [d] = 1 ∧ d.toNat < 128)) = true := by
    decide
  exact fun d hd => of_decide_eq_true (List.all_eq_true.mp hall d hd)

theorem weight_decimal (h : index < maxAdvisers) : weight (decimal (index + 1)) = 1 := by
  obtain ⟨d, hd, e⟩ := decimal_digit h
  rw [e]
  exact (weight_digit d hd).1

theorem block_le {place : Nat} {model content : Text} (hshort : content.length ≤ chars)
    (hindex : index < maxAdvisers) (hplace : place < maxAdvisers) :
    weight (adviserBlock index ⟨model, content⟩) ≤ weight
      (adviserBlock place ⟨model, List.replicate chars 0⟩) := by
  have hcontent : weight (withoutMarkers content) ≤ weight (withoutMarkers (List.replicate chars 0)) := by
    have hle := weight_le (withoutMarkers content)
    rw [withoutMarkers_length] at hle
    rw [withoutMarkers_nul, weight_nul]
    omega
  unfold adviserBlock
  simp only [weight_append, weight_decimal hindex, weight_decimal hplace]
  omega

theorem weight_joinWith (separator : Text) {texts : List Text} (h : texts ≠ []) :
    weight (joinWith separator texts) + weight separator =
      (texts.map fun t => weight t + weight separator).sum := by
  induction texts with
  | nil => exact absurd rfl h
  | cons t rest ih =>
    cases rest with
    | nil => exact (Nat.add_zero _).symm
    | cons u rest =>
      have hrest := ih (List.cons_ne_nil u rest)
      rw [List.map_cons, List.sum_cons, ← hrest, joinWith, weight_append, weight_append]
      · omega
      · exact List.cons_ne_nil u rest

def blocks (index : Nat) (proposals : List FusionProposal) : List Text :=
  (proposals.zipIdx index).map fun (proposal, index) => adviserBlock index proposal

def reserved (chars : Nat) (models : List Text) : List FusionProposal :=
  models.map fun model => ⟨model, List.replicate chars 0⟩

theorem blocks_le (extra : Nat)
    (h : Answered chars models proposals) {place : Nat} (hindex : index + proposals.length ≤ maxAdvisers)
    (hplace : place + models.length ≤ maxAdvisers) :
    ((blocks index proposals).map fun t => weight t + extra).sum ≤
      ((blocks place (reserved chars models)).map fun t => weight t + extra).sum := by
  induction h generalizing index place with
  | nil => exact Nat.le_refl 0
  | @failed model models proposals _ ih =>
    rw [List.length_cons] at hplace
    have hrest : ((blocks index proposals).map fun t => weight t + extra).sum ≤
        ((blocks (place + 1) (reserved chars models)).map fun t => weight t + extra).sum :=
          ih hindex (by omega)
    exact hrest.trans (Nat.le_add_left _ _)
  | @answered model content models proposals hshort _ ih =>
    rw [List.length_cons] at hindex hplace
    have hrest : ((blocks (index + 1) proposals).map fun t => weight t + extra).sum ≤
        ((blocks (place + 1) (reserved chars models)).map fun t => weight t + extra).sum :=
      ih (by omega) (by omega)
    have hblock : weight (adviserBlock index ⟨model, content⟩) ≤
        weight (adviserBlock place ⟨model, List.replicate chars 0⟩) := block_le hshort (by omega) (by omega)
    exact Nat.add_le_add (Nat.add_le_add_right hblock extra) hrest

/-! ## 5. The instruction -/

theorem ascii_joinWith {separator : Text} (hs : Ascii separator) {texts : List Text}
    (h : ∀ t ∈ texts, Ascii t) :
    Ascii (joinWith separator texts) := by
  induction texts with
  | nil => exact nofun
  | cons t rest ih =>
    cases rest with
    | nil => exact h t List.mem_cons_self
    | cons u rest =>
      have hrest := ih fun t' ht' => h t' (List.mem_cons_of_mem t ht')
      exact Ascii.append (Ascii.append (h t List.mem_cons_self) hs) hrest

theorem instructionLines_plain : ∀ t ∈ instructionLines, ∀ u ∈ t, u.toNat < 128 ∧ u ≠ 0x41 := by
  have hall : (instructionLines.all fun t => t.all fun u => u.toNat < 128 && u != 0x41) = true := by
    unfold instructionLines
    rw [Js.text_ofList, Js.text_ofList, Js.text_ofList]
    decide
  intro t ht u hu
  have hunit := List.all_eq_true.mp (List.all_eq_true.mp hall t ht) u hu
  rw [Bool.and_eq_true, decide_eq_true_eq, bne_iff_ne] at hunit
  exact hunit

theorem labelUnit_ascii {u : UInt16} (h : labelUnit u = true) : u.toNat < 128 ∧ u ≠ 0x20 := by
  have hall : ((Js.text "_./:@+-").all fun u => decide (u.toNat < 128 ∧ u ≠ 0x20)) = true := by decide
  have hspace : ∀ n : Nat, 33 ≤ n → u.toNat = n → u ≠ 0x20 := by
    rintro n hn rfl rfl
    revert hn
    decide
  unfold labelUnit at h
  simp only [Bool.or_eq_true, Bool.and_eq_true, decide_eq_true_eq] at h
  rcases h with ((h | h) | h) | h
  · exact ⟨by omega, hspace _ (by omega) rfl⟩
  · exact ⟨by omega, hspace _ (by omega) rfl⟩
  · exact ⟨by omega, hspace _ (by omega) rfl⟩
  · exact of_decide_eq_true (List.all_eq_true.mp hall u (List.contains_iff_mem.mp h))

theorem adviserLabel_plain (model : Text) : ∀ u ∈ adviserLabel model, u.toNat < 128 ∧ u ≠ 0x20 := by
  intro u hu
  obtain ⟨v, _, rfl⟩ := List.mem_map.mp (List.mem_of_mem_take hu)
  split
  · rename_i h
    exact labelUnit_ascii h
  · decide

theorem reservedBlock_ascii (model : Text) (h : index < maxAdvisers) :
    Ascii (adviserBlock index ⟨model, List.replicate chars 0⟩) := by
  have hnumber : Ascii (decimal (index + 1)) := by
    obtain ⟨d, hd, e⟩ := decimal_digit h
    rw [e]
    exact ascii_singleton (weight_digit d hd).2
  have hlabel : Ascii (adviserLabel model) := fun u hu => (adviserLabel_plain model u hu).1
  have hcontent : Ascii (List.replicate chars 0) := by
    intro u hu
    rw [List.eq_of_mem_replicate hu]
    decide
  have hopen : Ascii (Js.text "--- BEGIN ADVISER ") := by decide
  have hleft : Ascii (Js.text " (") := by decide
  have hright : Ascii (Js.text ") ---\n") := by decide
  have hclose : Ascii (Js.text "\n--- END ADVISER ") := by decide
  have hlast : Ascii (Js.text " ---") := by decide
  unfold adviserBlock
  rw [withoutMarkers_nul]
  refine Ascii.append (Ascii.append (Ascii.append ?_ hclose) hnumber) hlast
  exact Ascii.append (Ascii.append (Ascii.append (Ascii.append (Ascii.append hopen hnumber) hleft)
    hlabel) hright)
    hcontent

theorem reserved_ascii (h : models.length ≤ maxAdvisers) :
    Ascii (instructionText (reserved chars models)) := by
  refine ascii_joinWith (by decide) fun t ht => ?_
  rcases List.mem_append.mp ht with ht | ht
  · exact fun u hu => (instructionLines_plain t ht u hu).1
  · rw [List.mem_singleton.mp ht]
    refine ascii_joinWith (by decide) fun block hblock => ?_
    obtain ⟨⟨proposal, index⟩, hmem, rfl⟩ := List.mem_map.mp hblock
    obtain ⟨_, hlt, e⟩ := List.mem_zipIdx hmem
    have hlength : (reserved chars models).length = models.length := List.length_map _
    have hproposal : proposal ∈ reserved chars models := by
      rw [e]
      exact List.getElem_mem _
    obtain ⟨model, _, rfl⟩ := List.mem_map.mp hproposal
    exact reservedBlock_ascii model (by omega)

theorem weight_instruction (proposals : List FusionProposal) :
    weight (instructionText proposals) = weight (instructionText []) + weight (advisoryText proposals) := by
  unfold instructionText instructionLines
  simp only [List.cons_append, List.nil_append, joinWith, weight_append]
  have hnone : weight (advisoryText []) = 0 := rfl
  omega

/-- **The instruction with the proposals of a run is no larger than the one reserved for.** -/
theorem instruction_le
    (h : Answered chars models proposals) (hbound : models.length ≤ maxAdvisers) (hsome : proposals ≠ []) :
    valueBytes (fusionInstruction proposals) ≤ valueBytes (fusionInstruction (reserved chars models)) := by
  have hlength := h.length_le
  have hmodels : reserved chars models ≠ [] := by
    intro e
    have hnone := List.map_eq_nil_iff.mp e
    rw [hnone] at hlength
    exact hsome (List.eq_nil_of_length_eq_zero (Nat.le_zero.mp hlength))
  have hne : ∀ {proposals : List FusionProposal}, proposals ≠ [] → blocks 0 proposals ≠ [] := by
    intro proposals hsome e
    exact hsome (List.zipIdx_eq_nil_iff.mp (List.map_eq_nil_iff.mp e))
  have hindex : 0 + proposals.length ≤ maxAdvisers := by omega
  have hplace : 0 + models.length ≤ maxAdvisers := by omega
  have hblocks := blocks_le (weight (Js.text "\n\n")) h hindex hplace
  have hsum := weight_joinWith (Js.text "\n\n") (hne hsome)
  have hsum' := weight_joinWith (Js.text "\n\n") (hne hmodels)
  have hadvisory : weight (advisoryText proposals) ≤ weight (advisoryText (reserved chars models)) := by
    show weight (joinWith (Js.text "\n\n") (blocks 0 proposals)) ≤
      weight (joinWith (Js.text "\n\n") (blocks 0 (reserved chars models)))
    omega
  have htext : (encode (quoteBody (instructionText proposals))).length ≤
      (encode (quoteBody (instructionText (reserved chars models)))).length := by
    have hle := quoted_le_weight (instructionText proposals)
    rw [quoted_eq_weight (reserved_ascii hbound)]
    rw [weight_instruction] at hle ⊢
    omega
  refine valueBytes_obj_mono [(Js.text "role", some (.str (Js.text "system")))] [] (Js.text "content") ?_
  rw [valueBytes_str, valueBytes_str]
  omega

end ClawRouter.Fusion
