/-
  Subject:   What the multipart reader takes: the framing of the parts, and the reader read as a grammar.

  * **`parseFrom_ok`**: the loop takes the framings, with what each part adds.
-/
import ClawRouter.Transcription.Multipart

namespace ClawRouter.Transcription

open Utf16
open Fallible (demand)

/-! ## 1. Framing -/

/-- A part of a form. -/
structure Part where
  headers : Headers
  body : Bytes

/-- The body ends at the first separator that a line end or a closing follows. -/
def EndsAtFirst (boundary body rest : Bytes) : Prop :=
  ∀ front back, body ++ (separator boundary ++ rest) = front ++ (separator boundary ++ back) →
    crlf <+: back ∨ dashes <+: back → body.length ≤ front.length

/-- The parts after a boundary, up to the closing of the last one. -/
inductive Framed (boundary : Bytes) : Bytes → List Part → Prop
  | close : Framed boundary dashes []
  | closeLine : Framed boundary (dashes ++ crlf) []
  | part {text body rest : Bytes} {headers : Headers} {parts : List Part}
      (hlimit : text.length ≤ headersLimit) (hascii : asciiText text = some text)
      (hheaders : partHeaders text = some headers) (hbody : EndsAtFirst boundary body rest)
      (hrest : Framed boundary rest parts) :
      Framed boundary (crlf ++ (text ++ (headersEnd ++ (body ++ (separator boundary ++ rest)))))
        (⟨headers, body⟩ :: parts)

variable {back rest text : Bytes} {parts : List Part}

theorem Framed.begins {boundary : Bytes} (h : Framed boundary rest parts) :
    crlf <+: rest ∨ dashes <+: rest := by
  cases h with
  | close => exact .inr (List.prefix_refl _)
  | closeLine => exact .inr (List.prefix_append _ _)
  | part _ _ _ _ _ => exact .inl (List.prefix_append _ _)

/-! ## 2. Places -/

section Places

variable {front tail target : Bytes}

theorem isAt_append (front tail target : Bytes) (k : Nat) :
    isAt (front ++ tail) target (front.length + k) = isAt tail target k := by
  unfold isAt
  rw [List.length_append, List.drop_append, List.drop_eq_nil_of_le (by omega), List.nil_append,
    Nat.add_sub_cancel_left]
  congr 1
  rw [decide_eq_decide]
  omega

theorem delimits_append (front tail separator : Bytes) (k : Nat) :
    delimits (front ++ tail) separator (front.length + k) = delimits tail separator k := by
  unfold delimits
  rw [isAt_append, Nat.add_assoc, isAt_append, isAt_append]

theorem isAt_split {n : Nat} (hne : target ≠ []) :
    isAt tail target n = true ↔ ∃ mid back, tail = mid ++ (target ++ back) ∧ mid.length = n := by
  constructor
  · intro h
    obtain ⟨back, hback⟩ := (isAt_iff hne).mp h
    have hle := isAt_length h
    refine ⟨tail.take n, back, ?_, List.length_take_of_le (by omega)⟩
    rw [hback, List.take_append_drop]
  · rintro ⟨mid, back, rfl, rfl⟩
    rw [isAt_iff hne, List.drop_left]
    exact List.prefix_append _ _

theorem isAt_here (target back : Bytes) (hne : target ≠ []) : isAt (target ++ back) target 0 = true :=
  (isAt_split hne).mpr ⟨[], back, rfl, rfl⟩

theorem isAt_after {n : Nat} (hne : target ≠ []) (hle : front.length ≤ n)
    (h : isAt (front ++ tail) target n = true) :
    ∃ mid back, tail = mid ++ (target ++ back) ∧ n = front.length + mid.length := by
  obtain ⟨k, rfl⟩ := Nat.exists_eq_add_of_le hle
  rw [isAt_append] at h
  obtain ⟨mid, back, htail, hlength⟩ := (isAt_split hne).mp h
  exact ⟨mid, back, htail, by rw [hlength]⟩

theorem crlf_ne_nil : crlf ≠ [] := List.cons_ne_nil _ _

theorem dashes_ne_nil : dashes ≠ [] := List.cons_ne_nil _ _

theorem headersEnd_ne_nil : headersEnd ≠ [] := List.cons_ne_nil _ _

theorem delimits_here (boundary mid back : Bytes) :
    delimits (mid ++ (separator boundary ++ back)) (separator boundary) mid.length = true ↔
      crlf <+: back ∨ dashes <+: back := by
  have hplace : ∀ {target : Bytes}, target ≠ [] →
      (isAt (mid ++ (separator boundary ++ back)) target (mid.length + (separator boundary).length) = true ↔
        target <+: back) := by
    intro target hne
    rw [isAt_append, isAt_iff hne, List.drop_left]
  unfold delimits
  rw [Bool.and_eq_true, Bool.or_eq_true, hplace crlf_ne_nil, hplace dashes_ne_nil]
  exact and_iff_right ((isAt_split (separator_ne_nil boundary)).mpr ⟨mid, back, rfl, rfl⟩)

theorem endsAtFirst_iff (boundary body rest : Bytes) : EndsAtFirst boundary body rest ↔ ∀ j < body.length,
      delimits (body ++ (separator boundary ++ rest)) (separator boundary) j = false := by
  constructor
  · intro h j hj
    refine Bool.eq_false_iff.mpr fun hdelimits => ?_
    obtain ⟨front, back, hsplit, rfl⟩ := (isAt_split (separator_ne_nil boundary)).mp (delimits_isAt hdelimits)
    rw [hsplit] at hdelimits
    exact absurd hj (Nat.not_lt.mpr (h front back hsplit ((delimits_here boundary front back).mp hdelimits)))
  · intro h front back hsplit hends
    by_contra hlt
    have hmiss := h front.length (Nat.lt_of_not_le hlt)
    rw [hsplit, (delimits_here boundary front back).mpr hends] at hmiss
    cases hmiss

end Places

/-! ## 3. The blank line -/

section Blank

theorem splitLines_ne_nil (t : Bytes) : splitLines t ≠ [] := by
  induction t using splitLines.induct with
  | case1 | case2 rest _ => exact List.cons_ne_nil _ _
  | case3 b rest _ hrest _ | case4 b rest _ line lines hrest _ =>
    rw [splitLines, hrest]
    · exact List.cons_ne_nil _ _
    · assumption

theorem splitLines_cr (rest : Bytes) : ∃ line lines, splitLines (13 :: rest) = line :: lines ∧
    (line = [] ∨ 13 ∈ line) := by
  by_cases hlf : ∃ more, rest = 10 :: more
  · obtain ⟨more, rfl⟩ := hlf
    exact ⟨[], splitLines more, by rw [splitLines], .inl rfl⟩
  · have hno : ∀ more, 13 = (13 : UInt8) → rest = 10 :: more → False := fun more _ e => hlf ⟨more, e⟩
    cases hrest : splitLines rest with
    | nil => exact absurd hrest (splitLines_ne_nil rest)
    | cons line lines =>
      refine ⟨13 :: line, lines, ?_, .inr List.mem_cons_self⟩
      rw [splitLines, hrest]
      exact hno

theorem no_blank_line (hcr : ∀ line ∈ splitLines text, 13 ∉ line)
    (hne : ∀ line ∈ (splitLines text).tail, line ≠ []) :
    ∀ j < text.length, ¬ headersEnd <+: (text ++ (headersEnd ++ back)).drop j := by
  induction text using splitLines.induct with
  | case1 => exact fun j hj => absurd hj (Nat.not_lt_zero j)
  | case2 rest ih =>
    rw [splitLines] at hcr hne
    have hcr' : ∀ line ∈ splitLines rest, 13 ∉ line := fun line h => hcr line (List.mem_cons_of_mem _ h)
    rintro (_ | _ | j) hj hprefix
    · -- the byte after the line end would be a CR again
      cases rest with
      | nil => exact hne [] List.mem_cons_self rfl
      | cons c rest =>
        have hc : c = 13 := by
          obtain ⟨more, hmore⟩ := hprefix
          simp [headersEnd, crlf] at hmore
          exact hmore.1.symm
        subst hc
        obtain ⟨line, lines, hsplit, hline⟩ := splitLines_cr rest
        rcases hline with hline | hline
        · refine hne line ?_ hline
          rw [List.tail_cons, hsplit]
          exact List.mem_cons_self
        · refine hcr' line ?_ hline
          rw [hsplit]
          exact List.mem_cons_self
    · obtain ⟨more, hmore⟩ := hprefix
      simp [headersEnd, crlf] at hmore
    · refine ih hcr' (fun line h => hne line (List.mem_of_mem_tail h)) j ?_ hprefix
      simp only [List.length_cons] at hj
      omega
  | case3 b rest _ hrest _ => exact absurd hrest (splitLines_ne_nil rest)
  | case4 b rest hno line lines hrest ih =>
    have hlines : splitLines (b :: rest) = (b :: line) :: lines := by
      rw [splitLines, hrest]
      exact hno
    rw [hlines] at hcr hne
    rw [hrest] at ih
    have hb : b ≠ 13 := fun e => hcr _ List.mem_cons_self (e ▸ List.mem_cons_self)
    rintro (_ | j) hj hprefix
    · obtain ⟨more, hmore⟩ := hprefix
      simp [headersEnd, crlf] at hmore
      exact hb hmore.1.symm
    · refine ih ?_ hne j (Nat.lt_of_succ_lt_succ hj) hprefix
      intro l hl
      rcases List.mem_cons.mp hl with rfl | hl
      · exact fun h => hcr _ List.mem_cons_self (List.mem_cons_of_mem _ h)
      · exact hcr l (List.mem_cons_of_mem _ hl)

theorem headerValue_plain {value : Bytes} (h : headerValue rest = some value) :
    ∀ b ∈ rest, b ≠ 13 ∧ b ≠ 10 := by
  unfold headerValue at h
  split at h
  · cases h
  · rename_i hplain
    intro b hb
    refine not_or.mp fun hor => hplain ?_
    refine List.any_eq_true.mpr ⟨b, hb, ?_⟩
    rw [Bool.or_eq_true, decide_eq_true_iff, decide_eq_true_iff]
    exact hor

theorem headerLine_plain {line : Bytes} {header : HeaderName × Bytes} (h : headerLine line = some header) :
    line ≠ [] ∧ 13 ∉ line := by
  obtain ⟨name, _, hname⟩ := List.exists_of_findSome?_eq_some h
  dsimp only at hname
  split at hname
  · rename_i hfound
    obtain ⟨htext, hcolon⟩ := hfound
    obtain ⟨value, hvalue, _⟩ := Option.map_eq_some_iff.mp hname
    obtain ⟨hlt, hget⟩ := List.getElem?_eq_some_iff.mp hcolon
    refine ⟨List.ne_nil_of_length_pos (by omega), fun hmem => ?_⟩
    rw [← List.take_append_drop name.text.length line] at hmem
    rcases List.mem_append.mp hmem with hmem | hmem
    · have hlower : lowerByte 13 ∈ name.text := by
        rw [← htext]
        exact List.mem_map_of_mem hmem
      cases name with
      | disposition | type => exact absurd hlower (by decide)
    · rw [List.drop_eq_getElem_cons hlt, hget] at hmem
      rcases List.mem_cons.mp hmem with e | hmem
      · exact absurd e (by decide)
      · exact (headerValue_plain hvalue 13 hmem).1 rfl
  · cases hname

theorem acceptLines_plain {lines : List Bytes} {h h' : Headers}
    (hlines : lines.foldlM acceptLine h = some h') :
    ∀ line ∈ lines, line ≠ [] ∧ 13 ∉ line := by
  induction lines generalizing h with
  | nil => exact fun _ hline => absurd hline List.not_mem_nil
  | cons line lines ih =>
    rw [List.foldlM_cons] at hlines
    obtain ⟨next, hnext, hrest⟩ := Option.bind_eq_some_iff.mp hlines
    obtain ⟨header, hheader, _⟩ := Option.bind_eq_some_iff.mp hnext
    rintro l hl
    rcases List.mem_cons.mp hl with rfl | hl
    · exact headerLine_plain hheader
    · exact ih hrest l hl

theorem partHeaders_blank {headers : Headers} (h : partHeaders text = some headers) (back : Bytes) :
    ∀ j < text.length, isAt (text ++ (headersEnd ++ back)) headersEnd j = false := by
  have hplain := acceptLines_plain h
  intro j hj
  refine Bool.eq_false_iff.mpr fun hat => ?_
  refine no_blank_line (fun line hl => (hplain line hl).2) (fun line hl => ?_) j hj
    ((isAt_iff headersEnd_ne_nil).mp hat)
  exact (hplain line (List.mem_of_mem_tail hl)).1

end Blank

/-! ## 4. One part -/

section OnePart

/-- What a part adds to the fields and the file. -/
def acceptEntry (s : Entries) (part : Part) : Except Refusal Entries := do
  let (name, filename) ← demand (readDisposition (part.headers.disposition.getD []))
    (invalid "invalid multipart disposition")
  acceptPart s part.headers name filename part.body

theorem subarray_mid (front mid back : Bytes) :
    subarray (front ++ (mid ++ back)) front.length (front.length + mid.length) = mid := by
  unfold subarray
  rw [← List.append_assoc, List.take_append_of_le_length (by rw [List.length_append]), List.take_of_length_le
    (by rw [List.length_append]), List.drop_left]

/-- The bytes of a part, after its line end. -/
structure Laid (boundary tail : Bytes) (part : Part) (rest : Bytes) (text : Bytes) : Prop where
  tail : tail = text ++ (headersEnd ++ (part.body ++ (separator boundary ++ rest)))
  limit : text.length ≤ headersLimit
  ascii : asciiText text = some text
  headers : partHeaders text = some part.headers
  body : EndsAtFirst boundary part.body rest
  begins : crlf <+: rest ∨ dashes <+: rest

def after (front boundary : Bytes) (part : Part) (text : Bytes) : Nat :=
  front.length + text.length + 4 + part.body.length + (separator boundary).length

variable {boundary front tail : Bytes} {s s' : Entries} {cursor : Nat}

theorem asciiText_eq {bytes : Bytes} (h : asciiText bytes = some text) : text = bytes := by
  unfold asciiText at h
  split at h
  · cases h
  · cases h
    rfl

theorem laid_of_parsePart (h : parsePart (front ++ tail) boundary front.length s = .ok (cursor, s')) :
    ∃ part rest text, Laid boundary tail part rest text ∧ acceptEntry s part = .ok s' ∧
      cursor = after front boundary part text := by
  obtain ⟨stop, hstop, h⟩ := Fallible.bind_ok.mp h
  obtain ⟨hlow, _, hat, _⟩ := (find_eq_some headersEnd_ne_nil).mp (Fallible.demand_ok.mp hstop)
  obtain ⟨text, back, rfl, rfl⟩ := isAt_after headersEnd_ne_nil hlow hat
  obtain ⟨_, hlimit, h⟩ := Fallible.bind_ok.mp h
  have hlimit := of_decide_eq_true (Fallible.require_ok.mp hlimit)
  rw [subarray_mid] at h
  obtain ⟨text', hascii, h⟩ := Fallible.bind_ok.mp h
  have hascii := Fallible.demand_ok.mp hascii
  obtain rfl := asciiText_eq hascii
  obtain ⟨headers, hheaders, h⟩ := Fallible.bind_ok.mp h
  have hheaders := Fallible.demand_ok.mp hheaders
  obtain ⟨⟨name, filename⟩, hdisposition, h⟩ := Fallible.bind_ok.mp h
  obtain ⟨next, hnext, h⟩ := Fallible.bind_ok.mp h
  -- the body is looked for after the blank line
  have hraw : front ++ (text' ++ (headersEnd ++ back)) = (front ++ (text' ++ headersEnd)) ++ back := by
    rw [List.append_assoc, List.append_assoc]
  have hstart : front.length + text'.length + 4 = (front ++ (text' ++ headersEnd)).length := by
    rw [List.length_append, List.length_append, ← Nat.add_assoc]
    rfl
  obtain ⟨hafter, hdelimits, hquiet⟩ := (findBoundary_eq_some (separator_ne_nil boundary)).mp
    (Fallible.demand_ok.mp hnext)
  rw [hraw] at hdelimits hquiet h
  rw [hstart] at hafter hquiet h
  obtain ⟨body, rest, rfl, rfl⟩ := isAt_after (separator_ne_nil boundary) hafter (delimits_isAt hdelimits)
  rw [subarray_mid] at h
  obtain ⟨s'', hs, h⟩ := Fallible.bind_ok.mp h
  cases Fallible.pure_ok.mp h
  rw [delimits_append] at hdelimits
  refine ⟨⟨headers, body⟩, rest, text', ⟨rfl, ?_, hascii, hheaders, ?_, ?_⟩, ?_, ?_⟩
  · rw [Nat.add_sub_cancel_left] at hlimit
    exact hlimit
  · refine (endsAtFirst_iff boundary body rest).mpr fun j hj => ?_
    have hmiss := hquiet _ (Nat.le_add_right (front ++ (text' ++ headersEnd)).length j)
      (Nat.add_lt_add_left hj _)
    rw [delimits_append] at hmiss
    exact hmiss
  · exact (delimits_here boundary body rest).mp hdelimits
  · unfold acceptEntry
    rw [Fallible.demand_ok.mp hdisposition]
    exact hs
  · unfold after
    rw [hstart]

theorem parsePart_of_laid {part : Part} (h : Laid boundary tail part rest text)
    (hs : acceptEntry s part = .ok s') :
    parsePart (front ++ tail) boundary front.length s = .ok (after front boundary part text, s') := by
  obtain ⟨rfl, hlimit, hascii, hheaders, hbody, hbegins⟩ := h
  obtain ⟨headers, body⟩ := part
  have hfour : headersEnd.length = 4 := rfl
  have hstop : find (front ++ (text ++ (headersEnd ++ (body ++ (separator boundary ++ rest))))) headersEnd
      front.length (min (front ++ (text ++ (headersEnd ++ (body ++ (separator boundary ++ rest))))).length
        (front.length + headersLimit + 4)) = some (front.length + text.length) := by
    refine (find_eq_some headersEnd_ne_nil).mpr ⟨Nat.le_add_right _ _, ?_, ?_, fun j hj hjn => ?_⟩
    · simp only [List.length_append, hfour]
      omega
    · rw [isAt_append]
      exact (isAt_split headersEnd_ne_nil).mpr ⟨text, _, rfl, rfl⟩
    · obtain ⟨k, rfl⟩ := Nat.exists_eq_add_of_le hj
      rw [isAt_append]
      exact partHeaders_blank hheaders _ k (by omega)
  have hraw : front ++ (text ++ (headersEnd ++ (body ++ (separator boundary ++ rest)))) =
      (front ++ (text ++ headersEnd)) ++ (body ++ (separator boundary ++ rest)) := by
    rw [List.append_assoc, List.append_assoc]
  have hstart : front.length + text.length + 4 = (front ++ (text ++ headersEnd)).length := by
    rw [List.length_append, List.length_append, ← Nat.add_assoc]
    rfl
  have hnext : findBoundary ((front ++ (text ++ headersEnd)) ++ (body ++ (separator boundary ++ rest)))
      (separator boundary) (separator_ne_nil boundary) (front ++ (text ++ headersEnd)).length =
        some ((front ++ (text ++ headersEnd)).length + body.length) := by
    refine (findBoundary_eq_some (separator_ne_nil boundary)).mpr
      ⟨Nat.le_add_right _ _, ?_, fun j hj hjn => ?_⟩
    · rw [delimits_append]
      exact (delimits_here boundary body rest).mpr hbegins
    · obtain ⟨k, rfl⟩ := Nat.exists_eq_add_of_le hj
      rw [delimits_append]
      exact (endsAtFirst_iff boundary body rest).mp hbody k (by omega)
  obtain ⟨⟨name, filename⟩, hdisposition, hs⟩ := Fallible.bind_ok.mp hs
  refine Fallible.bind_ok.mpr ⟨_, Fallible.demand_ok.mpr hstop, ?_⟩
  refine Fallible.bind_ok.mpr ⟨(), Fallible.require_ok.mpr (decide_eq_true ?_), ?_⟩
  · rw [Nat.add_sub_cancel_left]
    exact hlimit
  rw [subarray_mid]
  refine Fallible.bind_ok.mpr ⟨_, Fallible.demand_ok.mpr hascii, ?_⟩
  refine Fallible.bind_ok.mpr ⟨_, Fallible.demand_ok.mpr hheaders, ?_⟩
  refine Fallible.bind_ok.mpr ⟨_, hdisposition, ?_⟩
  rw [hraw, hstart]
  refine Fallible.bind_ok.mpr ⟨_, Fallible.demand_ok.mpr hnext, ?_⟩
  rw [subarray_mid]
  refine Fallible.bind_ok.mpr ⟨s', hs, Fallible.pure_ok.mpr ?_⟩
  unfold after
  rw [hstart]

/-! ## 5. All parts -/

def acceptAll (s : Entries) (parts : List Part) : Except Refusal Entries := parts.foldlM acceptEntry s

theorem closing_iff (front back : Bytes) :
    (if isAt (front ++ (dashes ++ back)) crlf (front.length + 2) then front.length + 4 else front.length + 2) =
        (front ++ (dashes ++ back)).length ↔ back = [] ∨ back = crlf := by
  have hcrlf : isAt (front ++ (dashes ++ back)) crlf (front.length + 2) = isAt back crlf 0 := by
    rw [isAt_append]
    exact isAt_append dashes back crlf 0
  have hlength : (front ++ (dashes ++ back)).length = front.length + 2 + back.length := by
    rw [List.length_append, List.length_append, ← Nat.add_assoc]
    rfl
  rw [hcrlf, hlength]
  constructor
  · intro h
    split at h
    · rename_i hat
      obtain ⟨mid, more, rfl, hmid⟩ := (isAt_split crlf_ne_nil).mp hat
      obtain rfl := List.length_eq_zero_iff.mp hmid
      have hmore : more.length = 0 := by
        simp only [List.nil_append, List.length_append] at h
        simp only [crlf, List.length_cons, List.length_nil] at h
        omega
      right
      rw [List.length_eq_zero_iff.mp hmore]
      rfl
    · left
      exact List.length_eq_zero_iff.mp (by omega)
  · rintro (rfl | rfl)
    · rfl
    · rfl

theorem framed_dashes : Framed boundary (dashes ++ back) parts ↔ parts = [] ∧ (back = [] ∨ back = crlf) := by
  constructor
  · intro h
    generalize htail : dashes ++ back = tail at h
    cases h with
    | close => exact ⟨rfl, .inl (List.append_cancel_left (htail.trans (List.append_nil dashes).symm))⟩
    | closeLine => exact ⟨rfl, .inr (List.append_cancel_left htail)⟩
    | part => cases htail
  · rintro ⟨rfl, rfl | rfl⟩
    · exact .close
    · exact .closeLine

theorem parseFrom_dashes (left : Nat) (back : Bytes) :
    parseFrom (front ++ (dashes ++ back)) boundary left front.length s = .ok s' ↔
      (back = [] ∨ back = crlf) ∧ s = s' := by
  have hat : isAt (front ++ (dashes ++ back)) dashes front.length = true :=
    (isAt_split dashes_ne_nil).mpr ⟨front, back, rfl, rfl⟩
  unfold parseFrom
  rw [if_pos hat]
  rw [← closing_iff front back]
  by_cases hend : (if isAt (front ++ (dashes ++ back)) crlf (front.length + 2) then front.length + 4
      else front.length + 2) = (front ++ (dashes ++ back)).length
  · rw [if_pos hend]
    constructor
    · intro h
      cases h
      exact ⟨hend, rfl⟩
    · rintro ⟨_, rfl⟩
      rfl
  · rw [if_neg hend]
    constructor
    · intro h
      cases h
    · exact fun h => absurd h.1 hend

theorem parseFrom_closed (left : Nat) (back : Bytes) :
    parseFrom (front ++ (dashes ++ back)) boundary left front.length s = .ok s' ↔
      ∃ parts, Framed boundary (dashes ++ back) parts ∧ parts.length ≤ left ∧ acceptAll s parts = .ok s' := by
  rw [parseFrom_dashes]
  constructor
  · rintro ⟨hback, rfl⟩
    exact ⟨[], framed_dashes.mpr ⟨rfl, hback⟩, Nat.zero_le _, rfl⟩
  · rintro ⟨parts, hframed, _, hs⟩
    obtain ⟨rfl, hback⟩ := framed_dashes.mp hframed
    cases hs
    exact ⟨hback, rfl⟩

theorem not_dashes (front back : Bytes) : ¬ isAt (front ++ (crlf ++ back)) dashes front.length = true := by
  intro h
  obtain ⟨more, hmore⟩ := (isAt_iff dashes_ne_nil).mp h
  rw [List.drop_left] at hmore
  cases hmore

theorem parseFrom_last (back : Bytes) : parseFrom (front ++ (crlf ++ back)) boundary 0 front.length s =
      .error (invalid "invalid multipart framing or part count") := by
  have hat : isAt (front ++ (crlf ++ back)) crlf front.length = true :=
    (isAt_split crlf_ne_nil).mpr ⟨front, back, rfl, rfl⟩
  unfold parseFrom
  rw [if_neg (not_dashes front back), if_pos hat]

theorem parseFrom_part (left : Nat) (back : Bytes) :
    parseFrom (front ++ (crlf ++ back)) boundary (left + 1) front.length s =
      (parsePart ((front ++ crlf) ++ back) boundary (front ++ crlf).length s >>= fun next =>
        parseFrom ((front ++ crlf) ++ back) boundary left next.1 next.2) := by
  have hat : isAt (front ++ (crlf ++ back)) crlf front.length = true :=
    (isAt_split crlf_ne_nil).mpr ⟨front, back, rfl, rfl⟩
  rw [List.append_assoc, List.length_append, parseFrom, if_neg (not_dashes front back), if_pos hat]
  rfl

theorem parseFrom_other {left : Nat} (hdashes : ¬ dashes <+: tail) (hcrlf : ¬ crlf <+: tail) :
    parseFrom (front ++ tail) boundary left front.length s =
      .error (invalid "invalid multipart framing or part count") := by
  unfold parseFrom
  rw [if_neg, if_neg]
  · rw [isAt_iff crlf_ne_nil, List.drop_left]
    exact hcrlf
  · rw [isAt_iff dashes_ne_nil, List.drop_left]
    exact hdashes

theorem Framed.split (h : Framed boundary (crlf ++ back) parts) :
    ∃ part rest text more, parts = part :: more ∧ Laid boundary back part rest text ∧
      Framed boundary rest more := by
  generalize htail : crlf ++ back = tail at h
  cases h with
  | close | closeLine => cases htail
  | part hlimit hascii hheaders hbody hrest =>
    exact ⟨_, _, _, _, rfl, ⟨List.append_cancel_left htail, hlimit, hascii, hheaders, hbody,
      hrest.begins⟩, hrest⟩

theorem Laid.framed {part : Part} (h : Laid boundary tail part rest text)
    (hrest : Framed boundary rest parts) : Framed boundary (crlf ++ tail) (part :: parts) := by
  rw [h.tail]
  exact .part h.limit h.ascii h.headers h.body hrest

theorem Laid.after {part : Part} (h : Laid boundary tail part rest text) (front : Bytes) :
    ∃ done, front ++ tail = done ++ rest ∧ after front boundary part text = done.length := by
  refine ⟨front ++ (text ++ (headersEnd ++ (part.body ++ separator boundary))), ?_, ?_⟩
  · rw [h.tail]
    simp only [List.append_assoc]
  · have hfour : headersEnd.length = 4 := rfl
    unfold Transcription.after
    simp only [List.length_append, hfour]
    omega

/-- **The loop takes the framings**, of as many parts as are left. -/
theorem parseFrom_ok {left : Nat} : parseFrom (front ++ tail) boundary left front.length s = .ok s' ↔
      ∃ parts, Framed boundary tail parts ∧ parts.length ≤ left ∧ acceptAll s parts = .ok s' := by
  induction left generalizing front tail s with
  | zero =>
    by_cases hdashes : dashes <+: tail
    · obtain ⟨back, rfl⟩ := hdashes
      exact parseFrom_closed _ back
    · constructor
      · intro h
        by_cases hcrlf : crlf <+: tail
        · obtain ⟨back, rfl⟩ := hcrlf
          rw [parseFrom_last] at h
          cases h
        · rw [parseFrom_other hdashes hcrlf] at h
          cases h
      · rintro ⟨parts, hframed, hcount, _⟩
        obtain rfl := List.length_eq_zero_iff.mp (Nat.le_zero.mp hcount)
        cases hframed with
        | close => exact absurd (List.prefix_refl _) hdashes
        | closeLine => exact absurd (List.prefix_append _ _) hdashes
  | succ left ih =>
    by_cases hdashes : dashes <+: tail
    · obtain ⟨back, rfl⟩ := hdashes
      exact parseFrom_closed _ back
    · by_cases hcrlf : crlf <+: tail
      · obtain ⟨back, rfl⟩ := hcrlf
        rw [parseFrom_part, Fallible.bind_ok]
        constructor
        · rintro ⟨⟨cursor, next⟩, hpart, hrest⟩
          obtain ⟨part, rest, text, hlaid, hentry, rfl⟩ := laid_of_parsePart hpart
          obtain ⟨done, hdone, hafter⟩ := hlaid.after (front ++ crlf)
          rw [hdone, hafter] at hrest
          obtain ⟨parts, hframed, hcount, hs⟩ := ih.mp hrest
          refine ⟨part :: parts, hlaid.framed hframed, Nat.succ_le_succ hcount, ?_⟩
          exact Fallible.bind_ok.mpr ⟨next, hentry, hs⟩
        · rintro ⟨parts, hframed, hcount, hs⟩
          obtain ⟨part, rest, text, more, rfl, hlaid, hmore⟩ := hframed.split
          obtain ⟨next, hentry, hs⟩ := Fallible.bind_ok.mp hs
          obtain ⟨done, hdone, hafter⟩ := hlaid.after (front ++ crlf)
          refine ⟨_, parsePart_of_laid hlaid hentry, ?_⟩
          rw [hdone, hafter]
          exact ih.mpr ⟨more, hmore, Nat.le_of_succ_le_succ hcount, hs⟩
      · constructor
        · intro h
          rw [parseFrom_other hdashes hcrlf] at h
          cases h
        · rintro ⟨parts, hframed, _, _⟩
          rcases hframed.begins with h | h
          · exact absurd h hcrlf
          · exact absurd h hdashes

end OnePart

end ClawRouter.Transcription
