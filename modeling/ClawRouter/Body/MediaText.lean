/-
  Subject:   The media fast path of a JSON body is byte for byte what `JSON.stringify` writes.

  The skeleton and the text of the value are the same stretches with markers in one where the other has
  media. A stretch is quiet: no marker is found in it, whatever comes after.

  * `Laid`, **`laid_swapped`**: the two texts in parts;
  * **`splice_parts`**: the search finds the markers, each at its place and with its own media;
  * **`received_flatten`**: the stream is what the pieces stand for;
  * **`media_body`**: the body, its size and the value of the caller.
-/
import ClawRouter.Body.Media

namespace ClawRouter.Body

open Utf16 PlainJson Search

/-! ## 1. Plain texts -/

variable {u : UInt16}

theorem isPlain_lt (h : isPlain u = true) : u.toNat < 128 := by
  unfold isPlain at h
  simp only [Bool.or_eq_true, Bool.and_eq_true, beq_iff_eq, decide_eq_true_eq] at h
  omega

theorem isPlain_ge (h : isPlain u = true) : 0x20 ≤ u.toNat := by
  unfold isPlain at h
  simp only [Bool.or_eq_true, Bool.and_eq_true, beq_iff_eq, decide_eq_true_eq] at h
  omega

theorem isPlain_ne {v : UInt16} (h : isPlain u = true) (hv : isPlain v = false) : u ≠ v := by
  rintro rfl
  rw [h] at hv
  cases hv

variable {name rest t ys : Text}

theorem not_unplain : unplain t = false ↔ ∀ u ∈ t, isPlain u = true := by
  unfold unplain
  rw [List.any_eq_false]
  refine forall₂_congr fun u _ => ?_
  cases isPlain u <;> simp

theorem points_ascii (h : Ascii t) : points t = t.map .unit := by
  induction t with
  | nil => rfl
  | cons u rest ih =>
    have hrest := ih fun v hv => h v (List.mem_cons_of_mem _ hv)
    cases rest with
    | nil => rfl
    | cons v rest =>
      have hpair : ¬ (isLead u && isTrail v) = true := by
        rw [isLead_ascii (h u List.mem_cons_self), Bool.false_and]
        exact Bool.false_ne_true
      rw [points, dif_neg hpair, hrest]
      rfl

theorem quotePoint_eq (p : Point) : (∃ e ∈ letterEscapes, p = .unit e.1 ∧ quotePoint p = [0x5c, e.2]) ∨
    (∃ u, p = .unit u ∧ quotePoint p = unicodeEscape u) ∨
    (∃ u, p = .unit u ∧ quotePoint p = [u] ∧ u ≠ 0x22 ∧ u ≠ 0x5c) ∨
    ∃ lead trail h, p = .pair lead trail h ∧ quotePoint p = [lead, trail] := by
  cases p with
  | pair lead trail h => exact .inr (.inr (.inr ⟨lead, trail, h, rfl, rfl⟩))
  | unit u =>
    simp only [quotePoint]
    split
    · rename_i found letter hfound
      have hfirst : found = u := beq_iff_eq.mp
        (List.find?_some (p := fun e : UInt16 × UInt16 => e.1 == u) hfound)
      subst hfirst
      exact .inl ⟨_, List.mem_of_find?_eq_some hfound, rfl, rfl⟩
    · rename_i hnone
      split
      · exact .inr (.inl ⟨u, rfl, rfl⟩)
      · rw [List.find?_eq_none] at hnone
        refine .inr (.inr (.inl ⟨u, rfl, rfl, ?_, ?_⟩))
        · rintro rfl
          exact hnone (0x22, 0x22) (by decide) rfl
        · rintro rfl
          exact hnone (0x5c, 0x5c) (by decide) rfl

theorem quotePoint_plain (h : isPlain u = true) : quotePoint (.unit u) = [u] := by
  have hnone : letterEscapes.find? (·.1 == u) = none := by
    rw [List.find?_eq_none]
    intro e he heq
    have hall : letterEscapes.all (fun e => !isPlain e.1) = true := rfl
    have hnot := List.all_eq_true.mp hall e he
    rw [beq_iff_eq.mp heq, h] at hnot
    cases hnot
  have hcontrol : ¬ (u.toNat < 0x20 || isSurrogate u) = true := by
    have hlt := isPlain_lt h
    have hge := isPlain_ge h
    unfold isSurrogate isLead isTrail
    simp only [Bool.or_eq_true, Bool.and_eq_true, decide_eq_true_eq]
    omega
  simp only [quotePoint, hnone]
  rw [if_neg hcontrol]

theorem ascii_of_plain (h : ∀ u ∈ t, isPlain u = true) : Ascii t := fun u hu => isPlain_lt (h u hu)

theorem quoteBody_plain (h : ∀ u ∈ t, isPlain u = true) : quoteBody t = t := by
  unfold quoteBody
  rw [points_ascii (ascii_of_plain h), List.flatMap_map]
  induction t with
  | nil => rfl
  | cons u rest ih =>
    rw [List.flatMap_cons, quotePoint_plain (h u List.mem_cons_self), ih fun v hv => h v
      (List.mem_cons_of_mem _ hv)]
    rfl

/-! ## 2. Indices -/

theorem digits_isDigit (n : Nat) : ∀ u ∈ digits n, Inspect.isDigit u = true := by
  have hone : ∀ d < 10, Inspect.isDigit (UInt16.ofNat (48 + d)) = true := by decide
  induction n using digits.induct with
  | case1 n hlt =>
    rw [digits, if_pos hlt]
    exact List.forall_mem_singleton.mpr (hone n hlt)
  | case2 n hlt ih =>
    rw [digits, if_neg hlt]
    exact List.forall_mem_append.mpr ⟨ih, List.forall_mem_singleton.mpr (hone _ (Nat.mod_lt n (by decide)))⟩

theorem natOf_concat (t : Text) (u : UInt16) :
    Inspect.natOf (t ++ [u]) = Inspect.natOf t * 10 + (u.toNat - 0x30) := by
  unfold Inspect.natOf
  rw [List.foldl_append]
  rfl

theorem natOf_digits (n : Nat) : Inspect.natOf (digits n) = n := by
  have hone : ∀ d < 10, (UInt16.ofNat (48 + d)).toNat - 0x30 = d := by decide
  induction n using digits.induct with
  | case1 n hlt =>
    rw [digits, if_pos hlt]
    show 0 * 10 + _ = n
    rw [hone n hlt]
    omega
  | case2 n hlt ih =>
    rw [digits, if_neg hlt, natOf_concat, ih, hone _ (Nat.mod_lt n (by decide))]
    omega

theorem numberOfDigits_digits (n : Nat) : numberOfDigits (digits n) = some n := by
  unfold numberOfDigits
  rw [if_pos (List.all_eq_true.mpr (digits_isDigit n)), natOf_digits]

theorem isPlain_of_isDigit (h : Inspect.isDigit u = true) : isPlain u = true := by
  unfold Inspect.isDigit at h
  unfold isPlain
  simp only [Bool.and_eq_true, decide_eq_true_eq, UInt16.le_iff_toNat_le] at h
  obtain ⟨hge, hle⟩ := h
  have hge : 0x30 ≤ u.toNat := hge
  have hle : u.toNat ≤ 0x39 := hle
  simp only [Bool.or_eq_true, Bool.and_eq_true, decide_eq_true_eq]
  omega

/-! ## 3. The marker -/

def closers : Text := [comma, colon, 0x5d, 0x7d]

/-- A text that goes on where a value or a name has ended. -/
def Bounded (t : Text) : Prop := ∀ c, t.head? = some c → c ∈ closers

theorem Bounded.nil : Bounded [] := fun _ h => nomatch h

theorem Bounded.cons {c : UInt16} (h : c ∈ closers) (t : Text) : Bounded (c :: t) := by
  intro d hd
  cases hd
  exact h

/-- A marker that a search can tell from the rest of a text. -/
structure Marks (name : Text) : Prop where
  plain : ∀ u ∈ name, isPlain u = true
  open_ : ∀ c ∈ closers, c ∉ name
  long : 18 < name.length

theorem marker_marks (uuid : Uuid) : Marks (markerName ++ (uuid.text ++ [0x2d])) := by
  have hunit : ∀ u ∈ uuid.text, isPlain u = true ∧ u ∉ closers := by
    intro u hu
    have hclosers : closers.all (fun c => !Inspect.isDigit c &&
      !(0x61 ≤ c.toNat && c.toNat ≤ 0x66) && c != 0x2d) = true := rfl
    rcases uuid.plain u hu with hdigit | hletter | rfl
    · refine ⟨isPlain_of_isDigit hdigit, fun hmem => ?_⟩
      have hnot := List.all_eq_true.mp hclosers u hmem
      rw [hdigit] at hnot
      cases hnot
    · refine ⟨?_, fun hmem => ?_⟩
      · unfold isPlain
        simp only [Bool.or_eq_true, Bool.and_eq_true, decide_eq_true_eq]
        omega
      · have hnot := List.all_eq_true.mp hclosers u hmem
        rw [decide_eq_true hletter.1, decide_eq_true hletter.2] at hnot
        simp at hnot
    · decide
  have hname : ∀ u ∈ markerName, isPlain u = true ∧ u ∉ closers := by
    have hall : markerName.all (fun u => isPlain u = true ∧ u ∉ closers) = true := by decide
    exact fun u hu => of_decide_eq_true (List.all_eq_true.mp hall u hu)
  refine ⟨?_, ?_, ?_⟩
  · intro u hu
    rcases List.mem_append.mp hu with hu | hu
    · exact (hname u hu).1
    · rcases List.mem_append.mp hu with hu | hu
      · exact (hunit u hu).1
      · rw [List.mem_singleton.mp hu]
        rfl
  · intro c hc hmem
    rcases List.mem_append.mp hmem with hu | hu
    · exact (hname c hu).2 hc
    · rcases List.mem_append.mp hu with hu | hu
      · exact (hunit c hu).2 hc
      · rw [List.mem_singleton.mp hu] at hc
        exact absurd hc (by decide)
  · rw [List.length_append, List.length_append, uuid.length]
    decide

def zeroEscape : Text := [0x5c, 0x75, 0x30, 0x30, 0x30, 0x30]

section

variable (h : ∀ u ∈ name, isPlain u = true)
include h

theorem quoteBody_marked : quoteBody (0 :: name) = zeroEscape ++ name := by
  have hascii : Ascii (0 :: name) := List.forall_mem_cons.mpr ⟨by decide, ascii_of_plain h⟩
  have hname := quoteBody_plain h
  unfold quoteBody at hname ⊢
  rw [points_ascii hascii, List.map_cons, List.flatMap_cons, ← points_ascii (ascii_of_plain h), hname]
  rfl

theorem needle_marked : needle (0 :: name) = 0x22 :: (zeroEscape ++ name) := by
  unfold needle
  rw [inner_quote, quoteBody_marked h]

theorem quote_marked (i : Nat) :
    quote (0 :: name ++ digits i) = needle (0 :: name) ++ (digits i ++ [0x22]) := by
  have hall : ∀ u ∈ name ++ digits i, isPlain u = true :=
    List.forall_mem_append.mpr ⟨h, fun u hu => isPlain_of_isDigit (digits_isDigit i u hu)⟩
  unfold quote
  rw [List.cons_append, quoteBody_marked hall, needle_marked h]
  simp only [List.cons_append, List.append_assoc]

end

theorem hexUnit_zero {n : Nat} (hn : n < 16) (h : hexUnit n = 0x30) : n = 0 := by
  have hall : ∀ n < 16, hexUnit n = 0x30 → n = 0 := by decide
  exact hall n hn h

theorem quoted_plain {p : Point} (hu : isPlain u = true)
    (h : u :: name <+: quotePoint p ++ rest) : p = .unit u ∧ name <+: rest := by
  obtain ⟨e, _, _, hq⟩ | ⟨v, _, hq⟩ | ⟨v, hp, hq, _⟩ | ⟨lead, trail, hpair, _, hq⟩ := quotePoint_eq p
  · rw [hq] at h
    exact absurd (List.cons_prefix_cons.mp h).1 (isPlain_ne hu rfl)
  · rw [hq] at h
    exact absurd (List.cons_prefix_cons.mp h).1 (isPlain_ne hu rfl)
  · rw [hq] at h
    obtain ⟨heq, hrest⟩ := List.cons_prefix_cons.mp h
    rw [hp, heq]
    exact ⟨rfl, hrest⟩
  · rw [hq] at h
    obtain ⟨heq, _⟩ := List.cons_prefix_cons.mp h
    have hlead := isLead_ascii (isPlain_lt hu)
    rw [heq, (Bool.and_eq_true_iff.mp hpair).1] at hlead
    cases hlead

theorem quoted_zero {p : Point} (h : zeroEscape ++ name <+: quotePoint p ++ rest) :
    p = .unit 0 ∧ name <+: rest := by
  obtain ⟨e, he, _, hq⟩ | ⟨v, hp, hq⟩ | ⟨v, _, hq, _, hv⟩ | ⟨lead, trail, hpair, _, hq⟩ := quotePoint_eq p
  · rw [hq] at h
    have hletter : letterEscapes.all (fun e => e.2 != 0x75) = true := rfl
    have hsecond := (List.cons_prefix_cons.mp (List.cons_prefix_cons.mp h).2).1
    have hnot := List.all_eq_true.mp hletter e he
    rw [← hsecond] at hnot
    cases hnot
  · rw [hq] at h
    obtain ⟨-, h⟩ := List.cons_prefix_cons.mp h
    obtain ⟨-, h⟩ := List.cons_prefix_cons.mp h
    obtain ⟨h3, h⟩ := List.cons_prefix_cons.mp h
    obtain ⟨h2, h⟩ := List.cons_prefix_cons.mp h
    obtain ⟨h1, h⟩ := List.cons_prefix_cons.mp h
    obtain ⟨h0, h⟩ := List.cons_prefix_cons.mp h
    have hn3 := hexUnit_zero (Nat.mod_lt _ (by decide)) h3.symm
    have hn2 := hexUnit_zero (Nat.mod_lt _ (by decide)) h2.symm
    have hn1 := hexUnit_zero (Nat.mod_lt _ (by decide)) h1.symm
    have hn0 := hexUnit_zero (Nat.mod_lt _ (by decide)) h0.symm
    have hlt := v.toNat_lt
    have hv : v = 0 := UInt16.toNat_inj.mp (by
      show v.toNat = 0
      omega)
    rw [hp, hv]
    exact ⟨rfl, h⟩
  · rw [hq] at h
    exact absurd (List.cons_prefix_cons.mp h).1.symm hv
  · rw [hq] at h
    have hlead := (Bool.and_eq_true_iff.mp hpair).1
    rw [← (List.cons_prefix_cons.mp h).1] at hlead
    cases hlead

theorem plain_of_quoted (hplain : ∀ u ∈ name, isPlain u = true) {ps : List Point}
    (h : name <+: ps.flatMap quotePoint ++ 0x22 :: rest) : name.map .unit <+: ps := by
  induction name generalizing ps with
  | nil => exact List.nil_prefix
  | cons u name ih =>
    obtain ⟨hu, hname⟩ := List.forall_mem_cons.mp hplain
    cases ps with
    | nil => exact absurd (List.cons_prefix_cons.mp h).1 (isPlain_ne hu rfl)
    | cons p ps =>
      rw [List.flatMap_cons, List.append_assoc] at h
      obtain ⟨rfl, hrest⟩ := quoted_plain hu h
      exact List.cons_prefix_cons.mpr ⟨rfl, ih hname hrest⟩

theorem marker_of_quoted (hplain : ∀ u ∈ name, isPlain u = true) {ps : List Point}
    (h : zeroEscape ++ name <+: ps.flatMap quotePoint ++ 0x22 :: rest) : (0 :: name).map .unit <+: ps := by
  cases ps with
  | nil => exact absurd (List.cons_prefix_cons.mp h).1 (by decide)
  | cons p ps =>
    rw [List.flatMap_cons, List.append_assoc] at h
    obtain ⟨rfl, hrest⟩ := quoted_zero h
    exact List.cons_prefix_cons.mpr ⟨rfl, plain_of_quoted hplain hrest⟩

theorem infix_of_points {m s : Text} (h : m.map .unit <:+: points s) : m <:+: s := by
  obtain ⟨before, after, heq⟩ := h
  have hspelled := congrArg (List.flatMap spell) heq
  have hm : (m.map Point.unit).flatMap spell = m := by
    rw [List.flatMap_map]
    exact List.flatMap_singleton' m
  rw [List.flatMap_append, List.flatMap_append, spell_points, hm] at hspelled
  exact ⟨_, _, hspelled⟩

/-! ## 4. Quiet texts -/

section Quiet

variable {name : Text}

theorem quiet_close (h : Marks name) (hys : Bounded ys) : Quiet (needle (0 :: name)) [0x22] ys := by
  rw [needle_marked h.plain]
  refine ⟨fun hoccurs => ?_, trivial⟩
  have hrest : 0x5c :: ([0x75, 0x30, 0x30, 0x30, 0x30] ++ name) <+: ys := (List.cons_prefix_cons.mp hoccurs).2
  cases ys with
  | nil => exact absurd (List.prefix_nil.mp hrest) (List.cons_ne_nil _ _)
  | cons c ys =>
    have hc := hys c rfl
    rw [← (List.cons_prefix_cons.mp hrest).1] at hc
    exact absurd hc (by decide)

theorem quiet_points (h : Marks name) (hys : Bounded ys) {ps : List Point}
    (hfree : ¬ (0 :: name).map .unit <:+: ps) :
    Quiet (needle (0 :: name)) (ps.flatMap quotePoint ++ [0x22]) ys := by
  induction ps with
  | nil => exact quiet_close h hys
  | cons p ps ih =>
    have hrest : ¬ (0 :: name).map .unit <:+: ps := fun hin =>
      hfree (hin.trans (List.suffix_cons p ps).isInfix)
    have hlater := ih hrest
    rw [List.flatMap_cons, List.append_assoc]
    refine Quiet.append ?_ hlater
    rw [needle_marked h.plain]
    obtain ⟨e, he, hp, hq⟩ | ⟨v, _, hq⟩ | ⟨v, _, hq, hv, _⟩ | ⟨lead, trail, hpair, _, hq⟩ := quotePoint_eq p
    · rw [hq]
      refine .cons (by decide) ⟨fun hoccurs => ?_, trivial⟩
      -- a quotation mark in the string, which a marker would have to follow
      obtain ⟨_, hmarker⟩ := List.cons_prefix_cons.mp hoccurs
      rw [List.append_assoc] at hmarker
      exact hrest (marker_of_quoted h.plain hmarker).isInfix
    · rw [hq]
      refine .of_absent (fun hmem => ?_) _
      have hescape : ∀ u : UInt16, (0x22 : UInt16) ∉ unicodeEscape u := by
        intro u hmem
        have hhex : ∀ n < 16, hexUnit n ≠ 0x22 := by decide
        simp only [unicodeEscape, List.mem_cons, List.not_mem_nil, or_false] at hmem
        rcases hmem with h | h | h | h | h | h
        · cases h
        · cases h
        all_goals exact hhex _ (Nat.mod_lt _ (by decide)) h.symm
      exact hescape v hmem
    · rw [hq]
      exact .cons hv trivial
    · rw [hq]
      obtain ⟨hlead, htrail⟩ := Bool.and_eq_true_iff.mp hpair
      refine .cons ?_ (.cons ?_ trivial)
      · rintro rfl
        cases hlead
      · rintro rfl
        cases htrail

theorem quiet_quote (h : Marks name) {s : Text} (hfree : ¬ 0 :: name <:+: s) (hys : Bounded ys) :
    Quiet (needle (0 :: name)) (quote s) ys := by
  have hpoints : ¬ (0 :: name).map .unit <:+: points s := fun hin => hfree (infix_of_points hin)
  refine ⟨fun hoccurs => ?_, quiet_points h hys hpoints⟩
  rw [needle_marked h.plain] at hoccurs
  obtain ⟨_, hmarker⟩ := List.cons_prefix_cons.mp hoccurs
  rw [List.append_assoc] at hmarker
  exact hpoints (marker_of_quoted h.plain hmarker).isInfix

theorem quiet_short (h : Marks name) (hlt : t.length ≤ 25) (hys : Bounded ys) :
    Quiet (needle (0 :: name)) t ys := by
  have hlong := h.long
  rw [needle_marked h.plain]
  refine .of_short ?_ fun c hc hmem => ?_
  · show _ < (zeroEscape ++ name).length + 1
    rw [List.length_append]
    show _ < 6 + name.length + 1
    omega
  · have hcloser := hys c hc
    have hescape : ∀ c ∈ closers, c ∉ (0x22 :: zeroEscape : Text) := by
      have hall : closers.all (fun c => c ∉ (0x22 :: zeroEscape : Text)) = true := by decide
      exact fun c hc => of_decide_eq_true (List.all_eq_true.mp hall c hc)
    rw [← List.cons_append] at hmem
    rcases List.mem_append.mp hmem with hmem | hmem
    · exact hescape c hcloser hmem
    · exact h.open_ c hcloser hmem

end Quiet

/-! ## 5. The two texts in parts -/

/-- A stretch that both texts have, or a marker in one and its media in the other. -/
inductive Part
  | plain (t : Text)
  | mark (i : Nat) (slot : Slot)

def written (m : Text) : List Part → Text
  | [] => []
  | .plain t :: rest => t ++ written m rest
  | .mark i _ :: rest => quote (m ++ digits i) ++ written m rest

def meant : List Part → Text
  | [] => []
  | .plain t :: rest => t ++ meant rest
  | .mark _ slot :: rest => quote slot.value ++ meant rest

/-- The stretches are quiet, and every index is that of its slot. -/
def SoundParts (m : Text) (slots : List Slot) : List Part → Text → Prop
  | [], _ => True
  | .plain t :: rest, ys => Quiet (needle m) t (written m rest ++ ys) ∧ SoundParts m slots rest ys
  | .mark i slot :: rest, ys => slots[i]? = some slot ∧ SoundParts m slots rest ys

section Parts

variable {m : Text} {slots : List Slot}

theorem written_append (xs ys : List Part) : written m (xs ++ ys) = written m xs ++ written m ys := by
  induction xs with
  | nil => rfl
  | cons part xs ih => cases part <;> simp only [List.cons_append, written, ih, List.append_assoc]

theorem meant_append (xs ys : List Part) : meant (xs ++ ys) = meant xs ++ meant ys := by
  induction xs with
  | nil => rfl
  | cons part xs ih => cases part <;> simp only [List.cons_append, meant, ih, List.append_assoc]

theorem SoundParts.append {xs ys : List Part} {after : Text}
    (hx : SoundParts m slots xs (written m ys ++ after))
    (hy : SoundParts m slots ys after) : SoundParts m slots (xs ++ ys) after := by
  induction xs with
  | nil => exact hy
  | cons part xs ih =>
    cases part with
    | plain t =>
      refine ⟨?_, ih hx.2⟩
      show Quiet (needle m) t (written m (xs ++ ys) ++ after)
      rw [written_append, List.append_assoc]
      exact hx.1
    | mark i slot => exact ⟨hx.1, ih hx.2⟩

/-- Two texts that are the same parts, one with markers and one with media. -/
def Laid (m : Text) (slots : List Slot) (t u : Text) : Prop :=
  ∃ parts, u = written m parts ∧ t = meant parts ∧ ∀ after, Bounded after → SoundParts m slots parts after

theorem Laid.nil : Laid m slots [] [] := ⟨[], rfl, rfl, fun _ _ => trivial⟩

theorem Laid.of_quiet (h : ∀ after, Bounded after → Quiet (needle m) t after) : Laid m slots t t :=
  ⟨[.plain t], (List.append_nil t).symm, (List.append_nil t).symm, fun after hafter =>
    ⟨h after hafter, trivial⟩⟩

theorem Laid.mark {i : Nat} {slot : Slot} (h : slots[i]? = some slot) :
    Laid m slots (quote slot.value) (quote (m ++ digits i)) :=
  ⟨[.mark i slot], (List.append_nil _).symm, (List.append_nil _).symm, fun _ _ => ⟨h, trivial⟩⟩

theorem Laid.cons {c : UInt16} (hc : c ≠ 0x22) {u : Text} (h : Laid m slots t u) :
    Laid m slots (c :: t) (c :: u) := by
  obtain ⟨parts, rfl, rfl, hsound⟩ := h
  exact ⟨.plain [c] :: parts, rfl, rfl, fun after hafter => ⟨Quiet.cons hc trivial, hsound after hafter⟩⟩

theorem Laid.append {u t' u' : Text} (h : Laid m slots t u) (h' : Laid m slots t' u')
    (hnext : ∀ after, Bounded after → Bounded (u' ++ after)) : Laid m slots (t ++ t') (u ++ u') := by
  obtain ⟨xs, rfl, rfl, hx⟩ := h
  obtain ⟨ys, rfl, rfl, hy⟩ := h'
  exact ⟨xs ++ ys, (written_append xs ys).symm, (meant_append xs ys).symm, fun after hafter =>
    (hx _ (hnext after hafter)).append (hy after hafter)⟩

theorem Laid.later {ts us : List Text} (h : List.Forall₂ (Laid m slots) ts us) :
    Laid m slots (ts.flatMap fun t => comma :: t) (us.flatMap fun u => comma :: u) ∧
      ∀ after, Bounded after → Bounded ((us.flatMap fun u => comma :: u) ++ after) := by
  induction h with
  | nil => exact ⟨.nil, fun _ hafter => hafter⟩
  | cons hfirst _ ih =>
    refine ⟨?_, fun after _ => .cons (by decide) _⟩
    rw [List.flatMap_cons, List.flatMap_cons]
    exact (Laid.cons (by decide) hfirst).append ih.1 ih.2

theorem Laid.joined {ts us : List Text} (h : List.Forall₂ (Laid m slots) ts us) :
    Laid m slots (joined ts) (joined us) := by
  cases h with
  | nil => exact .nil
  | cons hfirst hrest => exact hfirst.append (Laid.later hrest).1 (Laid.later hrest).2

theorem Laid.bracketed {start stop : UInt16} (hstart : start ≠ 0x22) (hstop : stop ∈ closers) {u : Text}
    (h : Laid m slots t u) : Laid m slots (start :: (t ++ [stop])) (start :: (u ++ [stop])) := by
  have hne : stop ≠ 0x22 := by
    rintro rfl
    exact absurd hstop (by decide)
  exact .cons hstart (h.append (.cons hne .nil) fun _ _ => .cons hstop _)

end Parts

mutual

/-- The strings of a value, the names of members among them. -/
def strings : Value → List Text
  | .str s => [s]
  | .arr items => itemStrings items
  | .obj members => memberStrings members
  | .null => []
  | .bool _ => []
  | .num _ => []

def itemStrings : List (Option Value) → List Text
  | [] => []
  | none :: rest => itemStrings rest
  | some item :: rest => strings item ++ itemStrings rest

def memberStrings : List (Text × Option Value) → List Text
  | [] => []
  | (key, none) :: rest => key :: memberStrings rest
  | (key, some item) :: rest => key :: (strings item ++ memberStrings rest)

end

section Swapped

variable {name : Text} {slots : List Slot}

mutual

/-- **The texts of a value and of its skeleton, in parts.** -/
theorem laid_swapped (hm : Marks name) {value other : Value} (h : Swapped (0 :: name) slots value other)
    (hfree : ∀ s ∈ strings value, ¬ 0 :: name <:+: s) :
    Laid (0 :: name) slots (stringify value) (stringify other) := by
  cases h with
  | null => exact .of_quiet fun _ => quiet_short hm (t := nullText) (by decide)
  | bool b =>
    cases b with
    | true => exact .of_quiet fun _ => quiet_short hm (t := trueText) (by decide)
    | false => exact .of_quiet fun _ => quiet_short hm (t := falseText) (by decide)
  | num n => exact .of_quiet fun _ => quiet_short hm n.short
  | str s => exact .of_quiet fun _ => quiet_quote hm (hfree s List.mem_cons_self)
  | mark h => exact .mark h
  | arr h => exact .bracketed (by decide) (by decide) (.joined (laid_items hm h hfree))
  | obj h => exact .bracketed (by decide) (by decide) (.joined (laid_members hm h hfree))

theorem laid_items (hm : Marks name) {items others : List (Option Value)}
    (h : SwappedItems (0 :: name) slots items others)
    (hfree : ∀ s ∈ itemStrings items, ¬ 0 :: name <:+: s) :
    List.Forall₂ (Laid (0 :: name) slots) (itemTexts items) (itemTexts others) := by
  cases h with
  | nil => exact .nil
  | hole h => exact .cons (.of_quiet fun _ => quiet_short hm (t := nullText) (by decide)) (laid_items hm h hfree)
  | cons hitem h =>
    obtain ⟨hfirst, hrest⟩ := List.forall_mem_append.mp hfree
    exact .cons (laid_swapped hm hitem hfirst) (laid_items hm h hrest)

theorem laid_members (hm : Marks name) {members others : List (Text × Option Value)}
    (h : SwappedMembers (0 :: name) slots members others)
      (hfree : ∀ s ∈ memberStrings members, ¬ 0 :: name <:+: s) :
    List.Forall₂ (Laid (0 :: name) slots) (memberTexts members) (memberTexts others) := by
  cases h with
  | nil => exact .nil
  | hole key h =>
    have hrest := laid_members hm h (List.forall_mem_cons.mp hfree).2
    exact hrest
  | cons key hitem h =>
    obtain ⟨hkey, hfree⟩ := List.forall_mem_cons.mp hfree
    obtain ⟨hfirst, hrest⟩ := List.forall_mem_append.mp hfree
    refine .cons (Laid.append (.of_quiet fun _ => quiet_quote hm hkey) ?_ ?_) (laid_members hm h hrest)
    · exact .cons (by decide) (laid_swapped hm hitem hfirst)
    · exact fun _ _ => .cons (by decide) _

end

end Swapped

/-! ## 6. The search -/

def Piece.meaning : Piece → List UInt8
  | .bytes piece => piece
  | .media text => encode (quote text)

theorem quote_plain (h : unplain t = false) : quote t = 0x22 :: (t ++ [0x22]) := by
  unfold quote
  rw [quoteBody_plain (not_unplain.mp h)]

theorem mediaBytes_eq (media : Text) : mediaBytes media = (encode (quote media)).length := by
  unfold mediaBytes
  split
  · exact quotedBytes_eq media
  · rename_i hplain
    have hplain : unplain media = false := Bool.eq_false_iff.mpr hplain
    have hbody : (encode media).length = media.length :=
      (ascii_of_plain (not_unplain.mp hplain)).encode_length
    rw [encode_quote, quoteBody_plain (not_unplain.mp hplain)]
    show _ = (encode media ++ [0x22]).length + 1
    rw [List.length_append, hbody]
    rfl

theorem encode_media (front media rest : Text) : encode (front ++ (quote media ++ rest)) =
    encode front ++ (encode (quote media) ++ encode rest) := by
  have hcut : Cut front (quote media ++ rest) := by
    intro u v _ hv
    cases hv
    exact Bool.and_false _
  rw [encode_append hcut, encode_append ((quote_whole media).cut rest)]

theorem splice_step {needle skeleton : Text} {slots : List Slot} {start stop : Nat} {slot : Slot}
    {rest : MediaJsonBody}
    (hstart : indexOf needle skeleton = some start)
    (hstop : indexOf [0x22] (skeleton.drop (start + needle.length)) = some stop)
    (hslot : (numberOfDigits ((skeleton.drop (start + needle.length)).take stop)).bind (slots[·]?) =
      some slot)
    (hrest : splice needle slots ((skeleton.drop (start + needle.length)).drop (stop + 1)) = .ok rest) :
    splice needle slots skeleton = .ok ⟨(encode (skeleton.take start)).length + mediaBytes
      slot.value + rest.bytes,
      .bytes (encode (skeleton.take start)) :: .media slot.value :: rest.pieces⟩ := by
  rw [splice, hstart]
  dsimp only
  split
  · rename_i hnone
    rw [hstop] at hnone
    cases hnone
  · rename_i found hfound
    rw [hstop] at hfound
    cases hfound
    rw [hslot]
    rw [hrest]
    rfl

/-- **The search finds the markers, each at its place and with its own media.** -/
theorem splice_parts (hm : Marks name) {slots : List Slot} (parts : List Part) (front : Text)
    (hfront : Quiet (needle (0 :: name)) front (written (0 :: name) parts))
    (hparts : SoundParts (0 :: name) slots parts []) :
    ∃ body, splice (needle (0 :: name)) slots (front ++ written (0 :: name) parts) = .ok body ∧
      body.bytes = (encode (front ++ meant parts)).length ∧
      body.pieces.flatMap Piece.meaning = encode (front ++ meant parts) := by
  induction parts generalizing front with
  | nil =>
    have hnone : indexOf (needle (0 :: name)) (front ++ written (0 :: name) []) = none := by
      rw [indexOf_quiet hfront]
      rfl
    refine ⟨⟨(encode (front ++ [])).length, [.bytes (encode (front ++ []))]⟩, ?_, rfl, List.append_nil _⟩
    rw [splice, hnone]
    rfl
  | cons part parts ih =>
    cases part with
    | plain t =>
      obtain ⟨hquiet, hrest⟩ := hparts
      rw [List.append_nil] at hquiet
      have hboth := ih (front ++ t) (Quiet.append hfront hquiet) hrest
      rw [List.append_assoc, List.append_assoc] at hboth
      exact hboth
    | mark i slot =>
      obtain ⟨hslot, hrest⟩ := hparts
      obtain ⟨rest, hsplice, hbytes, hpieces⟩ := ih [] trivial hrest
      rw [List.nil_append] at hsplice hbytes hpieces
      let m := 0 :: name
      have htext : front ++ written m (.mark i slot :: parts) =
          front ++ (needle m ++ (digits i ++ (0x22 :: written m parts))) := by
        show front ++ (quote (m ++ digits i) ++ written m parts) = _
        rw [quote_marked hm.plain]
        simp only [List.append_assoc, List.cons_append, List.nil_append]
        rfl
      have hfound : indexOf (needle m) (front ++ (needle m ++ (digits i ++ (0x22 :: written m parts)))) =
          some front.length := by
        rw [← htext, indexOf_quiet hfront, ← List.append_cancel_left htext.symm, indexOf_here
          (List.prefix_append _ _)]
        rfl
      have hnamed : (front ++ (needle m ++ (digits i ++ (0x22 :: written m parts)))).drop
          (front.length + (needle m).length) = digits i ++ (0x22 :: written m parts) := by
        rw [← List.drop_drop, List.drop_left, List.drop_left]
      have hmark : (0x22 : UInt16) ∉ digits i := by
        intro hmem
        exact absurd (digits_isDigit i _ hmem) (by decide)
      have hmarkEnd : indexOf [0x22] (0x22 :: written m parts) = some 0 := indexOf_here ⟨_, rfl⟩
      have hstop : indexOf [0x22] (digits i ++ (0x22 :: written m parts)) = some (digits i).length := by
        rw [indexOf_quiet (.of_absent hmark _), hmarkEnd]
        rfl
      have hstep := @splice_step _ _ slots _ _ slot rest hfound (by rw [hnamed]; exact hstop)
        (by rw [hnamed, List.take_left, numberOfDigits_digits]; exact hslot)
        (by
          rw [hnamed, ← List.drop_drop, List.drop_left]
          exact hsplice)
      rw [List.take_left] at hstep
      refine ⟨_, (congrArg _ htext).trans hstep, ?_, ?_⟩
      · show (encode front).length + mediaBytes slot.value + rest.bytes =
          (encode (front ++ (quote slot.value ++ meant parts))).length
        rw [encode_media, hbytes, mediaBytes_eq]
        simp only [List.length_append]
        omega
      · show encode front ++ (encode (quote slot.value) ++ rest.pieces.flatMap Piece.meaning) =
          encode (front ++ (quote slot.value ++ meant parts))
        rw [hpieces, encode_media]

/-! ## 7. The stream -/

theorem plainSlices_flatten (t : Text) : (plainSlices t).flatten = t := by
  induction t using plainSlices.induct with
  | case1 => rw [plainSlices, List.flatten_nil]
  | case2 u rest ih => rw [plainSlices, List.flatten_cons, ih, List.take_append_drop]

theorem plainSlices_mem {slice : Text} (h : slice ∈ plainSlices t) : ∀ u ∈ slice, u ∈ t := by
  induction t using plainSlices.induct with
  | case1 =>
    rw [plainSlices] at h
    cases h
  | case2 u rest ih =>
    rw [plainSlices] at h
    rcases List.mem_cons.mp h with rfl | h
    · exact fun v hv => List.mem_of_mem_take hv
    · exact fun v hv => List.mem_of_mem_drop (ih h v hv)

theorem mediaChunks_encode (media : Text) : (mediaChunks media).flatMap encode = encode (quote media) := by
  unfold mediaChunks
  split
  · rw [List.flatMap_def, ← encode_flatten fun chunk hchunk => (quoted_fits chunk hchunk).1, quoted_flatten]
  · rename_i hplain
    have hplain : unplain media = false := Bool.eq_false_iff.mpr hplain
    have hascii := ascii_of_plain (not_unplain.mp hplain)
    have hwhole : ∀ chunk ∈ plainChunks media, Whole chunk := by
      intro chunk hchunk
      unfold plainChunks at hchunk
      rw [List.cons_append] at hchunk
      rcases List.mem_cons.mp hchunk with rfl | hchunk
      · exact quoteMark_ascii.whole
      · rcases List.mem_append.mp hchunk with hslice | hlast
        · exact Ascii.whole fun u hu => hascii u (plainSlices_mem hslice u hu)
        · rw [List.mem_singleton.mp hlast]
          exact quoteMark_ascii.whole
    have hflatten : (plainChunks media).flatten = quote media := by
      unfold plainChunks
      rw [List.cons_append, List.flatten_cons, List.flatten_append, plainSlices_flatten, quote_plain hplain]
      rfl
    rw [List.flatMap_def, ← encode_flatten hwhole, hflatten]

def remaining (chunks : Option (List Text)) : List Piece → List UInt8
  | [] => []
  | .bytes piece :: rest => piece ++ remaining chunks rest
  | .media text :: rest => (chunks.getD (mediaChunks text)).flatMap encode ++ remaining none rest

theorem pull_remaining (chunks : Option (List Text)) (pieces : List Piece) : remaining chunks pieces =
    match pull chunks pieces with
    | none => []
    | some (bytes, later, rest) => bytes ++ remaining later rest := by
  induction pieces generalizing chunks with
  | nil => rfl
  | cons piece pieces ih =>
    cases piece with
    | bytes piece =>
      rw [pull, remaining]
      by_cases hpiece : piece = []
      · rw [if_neg (not_not.mpr hpiece), ← ih, hpiece, List.nil_append]
      · rw [if_pos hpiece]
    | media text =>
      rw [pull, remaining]
      cases hchunks : chunks.getD (mediaChunks text) with
      | nil =>
        rw [← ih, List.flatMap_nil, List.nil_append]
      | cons chunk more =>
        show encode chunk ++ more.flatMap encode ++ remaining none pieces = encode chunk ++ (_ ++ _)
        rw [List.append_assoc]
        rfl

/-- **What a reader receives is what the pieces stand for.** -/
theorem received_flatten (chunks : Option (List Text)) (pieces : List Piece) :
    (received chunks pieces).flatten = remaining chunks pieces := by
  induction chunks, pieces using received.induct with
  | case1 chunks pieces hnone =>
    rw [pull_remaining, hnone, received]
    split
    · rfl
    · rename_i hsome
      rw [hnone] at hsome
      cases hsome
  | case2 chunks pieces bytes later rest hsome ih =>
    rw [pull_remaining, hsome, received]
    split
    · rename_i hnone
      rw [hsome] at hnone
      cases hnone
    · rename_i hagain
      rw [hsome] at hagain
      cases hagain
      rw [List.flatten_cons, ih]

theorem remaining_none (pieces : List Piece) : remaining none pieces = pieces.flatMap Piece.meaning := by
  induction pieces with
  | nil => rfl
  | cons piece pieces ih =>
    cases piece with
    | bytes piece => exact congrArg (piece ++ ·) ih
    | media text =>
      show (mediaChunks text).flatMap encode ++ remaining none pieces =
        encode (quote text) ++ pieces.flatMap Piece.meaning
      rw [mediaChunks_encode, ih]

/-! ## 8. The body -/

/-- **The media fast path.** For a value of `JSON.parse` whose strings do not contain the marker: the value is
afterwards what it was, also where `JSON.stringify` throws; a body streams the bytes of `JSON.stringify` and
tells their number; and no body comes only where the strings of 64 Ki units that the value holds are less than
1 Mi units. -/
theorem media_body {throws : Value → Bool} {uuid : Uuid} {value : Value} (hparsed : Parsed value)
    (hfree : ∀ s ∈ strings value, ¬ marker uuid <:+: s) :
    (mediaJsonBody throws uuid value).2 = value ∧
    match (mediaJsonBody throws uuid value).1 with
    | .ok none => heldStrings value < mediaMinimum
    | .ok (some body) => body.stream.flatten = encode (stringify value) ∧ body.bytes = (encode (stringify value)).length
    | .error e => e = .stringify ∧ ∃ skeleton, throws skeleton = true := by
  have hslots := slotsOf_sound hparsed
  unfold mediaJsonBody
  dsimp only
  rw [slotsOf_total]
  by_cases hsmall : heldStrings value < mediaMinimum
  · rw [if_pos hsmall]
    exact ⟨rfl, hsmall⟩
  · rw [if_neg hsmall, restore_swap (marker uuid) hslots]
    by_cases hthrows : throws (swap (marker uuid) (slotsOf value).slots value) = true
    · rw [if_pos hthrows]
      exact ⟨rfl, rfl, _, hthrows⟩
    · rw [if_neg hthrows]
      refine ⟨rfl, ?_⟩
      have hm := marker_marks uuid
      obtain ⟨parts, hwritten, hmeant, hsound⟩ := laid_swapped hm (swap_swapped (marker uuid) hslots) hfree
      obtain ⟨body, hsplice, hbytes, hpieces⟩ := splice_parts hm parts [] trivial (hsound [] .nil)
      rw [List.nil_append] at hsplice hbytes hpieces
      have hfound : splice (needle (marker uuid)) (slotsOf value).slots
          (stringify (swap (marker uuid) (slotsOf value).slots value)) = .ok body := by
        rw [hwritten]
        exact hsplice
      rw [hfound]
      show body.stream.flatten = _ ∧ body.bytes = _
      unfold MediaJsonBody.stream
      rw [received_flatten, remaining_none, hpieces, hbytes, hmeant]
      exact ⟨rfl, rfl⟩

theorem media_of_string (throws : Value → Bool) (uuid : Uuid) (s : Text) :
    mediaJsonBody throws uuid (.str s) = (.ok none, .str s) := by
  have hheld : heldStrings (.str s) = 0 := rfl
  have hless : 0 < mediaMinimum := by
    unfold mediaMinimum
    omega
  unfold mediaJsonBody
  dsimp only
  rw [slotsOf_total, hheld, if_pos hless]

def bareUuid : Uuid := ⟨List.replicate 36 0x2d, rfl, fun _ hu => .inr (.inr (List.eq_of_mem_replicate hu))⟩

def longText : Text := List.replicate mediaMinimum 0x61

theorem longText_free : ∀ s ∈ [longText], ¬ marker bareUuid <:+: s := by
  refine List.forall_mem_singleton.mpr fun hin => ?_
  obtain ⟨before, after, heq⟩ := hin
  have hmem : (0 : UInt16) ∈ longText := by
    rw [← heq]
    exact List.mem_append_left _ (List.mem_append_right _ List.mem_cons_self)
  exact absurd (List.eq_of_mem_replicate hmem) (by decide)

theorem longText_long : longStrings (.str longText) = mediaMinimum := by
  show (if mediaChars ≤ longText.length then longText.length else 0) = _
  unfold longText
  rw [List.length_replicate, if_pos (by decide)]

theorem heldStrings_singleton (item : Value) : heldStrings (.arr [some item]) = longStrings item := by
  show 0 + (longStrings item + 0) = _
  rw [Nat.add_zero, Nat.zero_add]

/-- One string of 1 Mi units, which an array holds. -/
theorem media_body_array :
    ∃ body, (mediaJsonBody (fun _ => false) bareUuid (.arr [some (.str longText)])).1 = .ok (some body) ∧
      body.stream.flatten = encode (stringify (.arr [some (.str longText)])) := by
  have hparsed : Parsed (.arr [some (.str longText)]) := ⟨trivial, trivial⟩
  obtain ⟨_, hbody⟩ := @media_body (fun _ => false) bareUuid _ hparsed longText_free
  have hheld : heldStrings (.arr [some (.str longText)]) = mediaMinimum := by
    rw [heldStrings_singleton, longText_long]
  split at hbody
  · rw [hheld] at hbody
    exact absurd hbody (Nat.lt_irrefl _)
  · rename_i body hresult
    exact ⟨body, hresult, hbody.1⟩
  · obtain ⟨_, _, hthrows⟩ := hbody
    cases hthrows

/-- One string of 1 Mi units, which nothing holds: there is no body. -/
theorem no_body_of_longText : ¬ ∀ (throws : Value → Bool) (uuid : Uuid) (value : Value), Parsed value →
      (∀ s ∈ strings value, ¬ marker uuid <:+: s) → (mediaJsonBody throws uuid value).1 = .ok none →
        longStrings value < mediaMinimum := by
  intro hall
  have hlt := hall (fun _ => false) bareUuid (.str longText) trivial longText_free
    (congrArg Prod.fst (media_of_string _ _ _))
  rw [longText_long] at hlt
  exact Nat.lt_irrefl _ hlt

end ClawRouter.Body
