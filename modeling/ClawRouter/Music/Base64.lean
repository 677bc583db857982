/-
  Subject:   Base64 that is only counted (`Base64Counter` of src/worker/openrouter-music.ts) and base64
             that is checked as a whole (`canonicalMediaBase64` of src/worker/managed-media-json.ts).

  The counter keeps the position in a quartet and the last sextet, and no text. The check wants one
  alphabet, the right padding, and nothing in the bits that no byte takes.

  * **`counter_size`**, **`canonical_size`**: they do.
-/
import ClawRouter.Lib.Base64
import Mathlib.Data.List.TakeWhile

namespace ClawRouter.Music

open Utf16 Base64

/-! ## 1. The counter -/

def valueOf (urlSafe : Bool) (u : UInt16) : Int :=
  let code := u.toNat
  if 65 ≤ code ∧ code ≤ 90 then code - 65
  else if 97 ≤ code ∧ code ≤ 122 then code - 71
  else if 48 ≤ code ∧ code ≤ 57 then code + 4
  else if code = 43 ∨ urlSafe ∧ code = 45 then 62
  else if code = 47 ∨ urlSafe ∧ code = 95 then 63
  else -1

/-- The counter between two chunks. -/
structure Base64Counter where
  position : Nat
  last : Int
  secondPadding : Bool
  closed : Bool
  bytes : Nat
  deriving DecidableEq

namespace Base64Counter

def fresh : Base64Counter := ⟨0, 0, false, false, 0⟩

section Counter

variable (limit : Nat) (urlSafe : Bool)

/-- One turn of the loop of `accept`; none where it throws. -/
def acceptUnit (s : Base64Counter) (u : UInt16) : Option Base64Counter :=
  let padding := u = 61
  let value := valueOf urlSafe u
  if s.closed then none
  else if ¬padding ∧ value < 0 ∨ padding ∧ s.position < 2 then none
  else if s.position = 2 ∧ padding then
    if s.last % 16 ≠ 0 then none
    else some { s with secondPadding := true, last := value, position := 3 }
  else if s.position = 3 then
    if s.secondPadding ∧ ¬padding ∨ padding ∧ ¬s.secondPadding ∧ s.last % 4 ≠ 0 then none
    else
      let bytes := s.bytes + if s.secondPadding then 1 else if padding then 2 else 3
      if limit < bytes then none else some ⟨0, value, false, padding, bytes⟩
  else some { s with last := value, position := (s.position + 1) % 4 }

def accept (s : Base64Counter) (data : Text) : Option Base64Counter := data.foldlM (acceptUnit limit urlSafe) s

def result (s : Base64Counter) : Option Nat :=
  if s.position = 1 ∨ s.secondPadding ∨ s.position = 2 ∧ s.last % 16 ≠ 0 ∨ s.position = 3 ∧
    s.last % 4 ≠ 0 then none
  else
    let bytes := s.bytes + (s.position - 1)
    if bytes = 0 ∨ limit < bytes then none else some bytes

end Counter

end Base64Counter

/-! ## 2. The check -/

/-- A unit of the standard alphabet, or of either one. -/
def isLetter (urlSafe : Bool) (u : UInt16) : Bool := (sextet u).isSome || urlSafe && (u = 45 || u = 95)

/-- The unit of the standard alphabet for one of the URL-safe alphabet. -/
def standardUnit (u : UInt16) : UInt16 := if u = 45 then 43 else if u = 95 then 47 else u

/-- A text in base64 and its size. -/
structure CanonicalBase64 where
  base64 : Text
  decodedBytes : Nat

def lastFour (t : Text) : Text := t.drop (t.length - 4)

/-- `canonicalMediaBase64`; none where it throws. -/
def canonicalMediaBase64 (value : Text) (limit : Nat) : Option CanonicalBase64 :=
  let rest := value.dropWhile (isLetter true)
  if value.length = 0 ∨ (limit + 2) / 3 * 4 < value.length ∨ value.takeWhile (isLetter true) = [] ∨
      ¬(rest = [] ∨ rest = [61] ∨ rest = [61, 61]) then none
  else
    let standard := value.map standardUnit
    let unpadded := (standard.reverse.dropWhile (· = 61)).reverse
    if unpadded.length % 4 = 1 ∨ 61 ∈ standard ∧ standard.length % 4 ≠ 0 then none
    else
      let canonical := unpadded ++ List.replicate ((4 - unpadded.length % 4) % 4) padding
      let tail := lastFour canonical
      if 61 ∈ standard ∧ standard ≠ canonical ∨ (atob tail).map btoa ≠ some tail then none
      else
        let decodedBytes := unpadded.length * 3 / 4
        if limit < decodedBytes then none else some ⟨canonical, decodedBytes⟩

/-! ## 3. What they come to -/

def Padded (letters : Nat) (rest : Text) : Prop :=
  rest = [] ∨ letters % 4 = 2 ∧ rest = [61, 61] ∨ letters % 4 = 3 ∧ rest = [61]

instance (letters : Nat) (rest : Text) : Decidable (Padded letters rest) :=
  inferInstanceAs (Decidable (_ ∨ _ ∧ _ ∨ _ ∧ _))

/-- The bits of the last letter, 0 where there is none. -/
def lastBits (body : Text) : Nat := (body.getLast?.map fun u => bitsOf (standardUnit u)).getD 0

def looseBits (body : Text) : Nat :=
  if body.length % 4 = 2 then lastBits body % 16 else if body.length % 4 = 3 then lastBits body % 4 else 0

/-- How many bytes a text stands for, none where it is not base64 or stands for too many. -/
def mediaSize (urlSafe : Bool) (limit : Nat) (value : Text) : Option Nat :=
  let body := value.takeWhile (isLetter urlSafe)
  if body.length ≠ 0 ∧ body.length % 4 ≠ 1 ∧ Padded body.length (value.dropWhile (isLetter urlSafe)) ∧
      looseBits body = 0 ∧ body.length * 3 / 4 ≤ limit then some (body.length * 3 / 4)
  else none

variable {limit : Nat} {urlSafe : Bool}

theorem not_letter_padding : isLetter urlSafe 61 = false := by
  cases urlSafe <;> decide

variable {u : UInt16}

theorem valueOf_letter (h : isLetter urlSafe u = true) : valueOf urlSafe u = bitsOf (standardUnit u) := by
  by_cases h45 : u = 45
  · subst h45
    cases urlSafe with
    | true => decide
    | false => exact absurd h (by decide)
  · by_cases h95 : u = 95
    · subst h95
      cases urlSafe with
      | true => decide
      | false => exact absurd h (by decide)
    · have hsextet : (sextet u).isSome = true := by simpa [isLetter, h45, h95] using h
      rw [standardUnit, if_neg h45, if_neg h95, bitsOf]
      have n45 : u.toNat ≠ 45 := fun e => h45 (unit_ext e)
      have n95 : u.toNat ≠ 95 := fun e => h95 (unit_ext e)
      unfold sextet at hsextet ⊢
      unfold valueOf
      dsimp only at hsextet ⊢
      split_ifs at hsextet ⊢ <;> simp_all
      omega

theorem valueOf_other (h : isLetter urlSafe u = false) : valueOf urlSafe u = -1 := by
  simp only [isLetter, Bool.or_eq_false_iff, Bool.and_eq_false_iff] at h
  obtain ⟨hsextet, hsafe⟩ := h
  have h45 : ¬(urlSafe = true ∧ u.toNat = 45) := by
    rintro ⟨rfl, e⟩
    simp [unit_ext (v := 45) e] at hsafe
  have h95 : ¬(urlSafe = true ∧ u.toNat = 95) := by
    rintro ⟨rfl, e⟩
    simp [unit_ext (v := 95) e] at hsafe
  unfold sextet at hsextet
  unfold valueOf
  dsimp only at hsextet ⊢
  split_ifs at hsextet ⊢ <;> simp_all

/-! ## 4. The counter comes to it -/

variable {body rest t value : Text}

namespace Base64Counter

def counted (body : Text) : Base64Counter :=
  ⟨body.length % 4, lastBits body, false, false, body.length / 4 * 3⟩

theorem lastBits_concat (body : Text) (u : UInt16) : lastBits (body ++ [u]) = bitsOf (standardUnit u) := by
  rw [lastBits, List.getLast?_concat]
  rfl

theorem acceptUnit_letter (h : isLetter urlSafe u = true) : acceptUnit limit urlSafe (counted body) u =
      if body.length % 4 = 3 ∧ limit < (body ++ [u]).length / 4 * 3 then none else
        some (counted (body ++ [u])) := by
  have hpad : u ≠ 61 := by
    rintro rfl
    rw [not_letter_padding] at h
    cases h
  have hvalue := valueOf_letter h
  unfold acceptUnit counted
  rw [lastBits_concat, hvalue, List.length_append, List.length_singleton]
  have hvalid : ¬(¬u = 61 ∧ ((bitsOf (standardUnit u) : Nat) : Int) < 0 ∨ u = 61 ∧ body.length % 4 < 2) := by
    rintro (⟨_, hneg⟩ | ⟨e, _⟩)
    · omega
    · exact hpad e
  rw [if_neg Bool.false_ne_true, if_neg hvalid, if_neg fun e => hpad e.2]
  by_cases hthree : body.length % 4 = 3
  · rw [if_pos hthree, if_neg (by simp [hpad])]
    have hbytes : body.length / 4 * 3 + 3 = (body.length + 1) / 4 * 3 := by omega
    have hposition : (body.length + 1) % 4 = 0 := by omega
    simp only [hpad, if_false, Bool.false_eq_true, hbytes, hthree, true_and, hposition, decide_false]
  · rw [if_neg hthree, if_neg (by omega)]
    have hbytes : body.length / 4 * 3 = (body.length + 1) / 4 * 3 := by omega
    have hposition : (body.length % 4 + 1) % 4 = (body.length + 1) % 4 := by omega
    rw [hbytes, hposition]

theorem accept_letters (h : ∀ u ∈ body, isLetter urlSafe u = true) : accept limit urlSafe fresh body =
      if limit < body.length / 4 * 3 then none else some (counted body) := by
  induction body using List.reverseRecOn with
  | nil =>
    rw [if_neg (by simp)]
    rfl
  | append_singleton body u ih =>
    have hbody := ih fun v hv => h v (List.mem_append_left _ hv)
    have hu := h u (List.mem_append_right _ List.mem_cons_self)
    unfold accept at hbody ⊢
    rw [List.foldlM_append, hbody]
    by_cases hle : limit < body.length / 4 * 3
    · rw [if_pos hle, if_pos (by rw [List.length_append, List.length_singleton]; omega)]
      rfl
    · rw [if_neg hle]
      show acceptUnit limit urlSafe (counted body) u >>= pure = _
      rw [bind_pure, acceptUnit_letter hu, List.length_append, List.length_singleton]
      refine if_congr ?_ rfl rfl
      omega

theorem accept_append (s : Base64Counter) (xs ys : Text) :
    accept limit urlSafe s (xs ++ ys) = (accept limit urlSafe s xs).bind (accept limit urlSafe · ys) :=
  List.foldlM_append

theorem accept_cons (s : Base64Counter) (u : UInt16) (rest : Text) : accept limit urlSafe s (u :: rest) =
      (acceptUnit limit urlSafe s u).bind (accept limit urlSafe · rest) := rfl

theorem acceptUnit_other {s : Base64Counter} (h : isLetter urlSafe u = false)
    (hpad : u ≠ 61) : acceptUnit limit urlSafe s u = none := by
  unfold acceptUnit
  dsimp only
  split
  · rfl
  · rw [if_pos (.inl ⟨hpad, by rw [valueOf_other h]; omega⟩)]

theorem result_closed {bytes : Nat} {value : Int} (rest : Text) :
    (accept limit urlSafe ⟨0, value, false, true, bytes⟩ rest).bind (result limit) =
      if rest = [] ∧ bytes ≠ 0 ∧ bytes ≤ limit then some bytes else none := by
  cases rest with
  | nil =>
    show result limit _ = _
    unfold result
    dsimp only
    rw [if_neg (by simp)]
    by_cases h : bytes = 0 ∨ limit < bytes
    · rw [if_pos (by omega), if_neg (by omega)]
    · rw [if_neg (by omega), if_pos ⟨rfl, by omega, by omega⟩]
      rfl
  | cons u rest =>
    rw [accept_cons, if_neg fun h => List.cons_ne_nil _ _ h.1]
    rfl

theorem result_second {bytes : Nat} {value : Int} (rest : Text) :
    (accept limit urlSafe ⟨3, value, true, false, bytes⟩ rest).bind (result limit) =
      if rest = [61] ∧ bytes + 1 ≤ limit then some (bytes + 1) else none := by
  cases rest with
  | nil =>
    rw [if_neg fun h => List.cons_ne_nil _ _ h.1.symm]
    show result limit _ = none
    unfold result
    rw [if_pos (.inr (.inl rfl))]
  | cons u rest =>
    rw [accept_cons]
    by_cases hpad : u = 61
    · subst hpad
      have hunit : acceptUnit limit urlSafe ⟨3, value, true, false, bytes⟩ 61 =
          if limit < bytes + 1 then none else some ⟨0, -1, false, true, bytes + 1⟩ := by
        unfold acceptUnit
        rw [valueOf_other not_letter_padding, if_neg Bool.false_ne_true, if_neg (by simp),
          if_neg (by simp), if_pos rfl, if_neg (by simp), if_pos rfl]
        rfl
      rw [hunit]
      by_cases hlimit : limit < bytes + 1
      · rw [if_pos hlimit, if_neg (by omega)]
        rfl
      · rw [if_neg hlimit]
        show (accept limit urlSafe _ rest).bind (result limit) = _
        rw [result_closed]
        exact if_congr (by simp) rfl rfl
    · have hunit : acceptUnit limit urlSafe ⟨3, value, true, false, bytes⟩ u = none := by
        unfold acceptUnit
        rw [if_neg Bool.false_ne_true]
        split
        · rfl
        · rw [if_neg fun h => hpad h.2, if_pos rfl, if_pos (.inl ⟨rfl, hpad⟩)]
      rw [hunit, if_neg fun h => hpad (List.cons.inj h.1).1]
      rfl

def unfinished (s : Base64Counter) : Prop :=
  s.position = 1 ∨ s.secondPadding = true ∨ s.position = 2 ∧ s.last % 16 ≠ 0 ∨ s.position = 3 ∧ s.last % 4 ≠ 0

theorem result_unfinished {s : Base64Counter} (h : unfinished s) : result limit s = none := if_pos h

theorem result_finished {s : Base64Counter} (h : ¬unfinished s) {size : Nat}
    (hsize : s.bytes + (s.position - 1) = size) :
    result limit s = if size = 0 ∨ limit < size then none else some size := by
  subst hsize
  exact if_neg h

theorem loose_iff (h : body.length % 4 ≠ 1) : unfinished (counted body) ↔ looseBits body ≠ 0 := by
  unfold unfinished counted looseBits
  simp only [Bool.false_eq_true, false_or]
  split_ifs <;> omega

theorem result_counted (body : Text) : result limit (counted body) =
      if body.length ≠ 0 ∧ body.length % 4 ≠ 1 ∧ looseBits body = 0 ∧ body.length * 3 / 4 ≤ limit then
        some (body.length * 3 / 4) else none := by
  by_cases hone : body.length % 4 = 1
  · rw [result_unfinished (.inl hone), if_neg fun h => h.2.1 hone]
  · by_cases hbits : looseBits body = 0
    · have hbytes : body.length / 4 * 3 + (body.length % 4 - 1) = body.length * 3 / 4 := by omega
      rw [result_finished (fun h => (loose_iff hone).mp h hbits) hbytes]
      by_cases hsize : body.length * 3 / 4 = 0 ∨ limit < body.length * 3 / 4
      · rw [if_pos hsize, if_neg (by omega)]
      · rw [if_neg hsize, if_pos ⟨by omega, hone, hbits, by omega⟩]
    · rw [result_unfinished ((loose_iff hone).mpr hbits), if_neg fun h => hbits h.2.2.1]

theorem acceptUnit_two (h : body.length % 4 = 2) : acceptUnit limit urlSafe (counted body) 61 =
      if looseBits body ≠ 0 then none else some ⟨3, -1, true, false, body.length / 4 * 3⟩ := by
  unfold acceptUnit counted looseBits
  dsimp only
  rw [valueOf_other not_letter_padding, if_neg Bool.false_ne_true, if_neg (by simp [h]), if_pos
    ⟨h, rfl⟩, if_pos h]
  refine if_congr ?_ rfl rfl
  omega

theorem acceptUnit_three (h : body.length % 4 = 3) : acceptUnit limit urlSafe (counted body) 61 =
      if looseBits body ≠ 0 ∨ limit < body.length / 4 * 3 + 2 then none
      else some ⟨0, -1, false, true, body.length / 4 * 3 + 2⟩ := by
  have hloose : looseBits body = lastBits body % 4 := by
    rw [looseBits, if_neg (by omega), if_pos h]
  unfold acceptUnit counted
  rw [valueOf_other not_letter_padding, if_neg Bool.false_ne_true, if_neg (by simp [h]),
    if_neg (by simp [h]), if_pos h, hloose]
  by_cases hbits : lastBits body % 4 = 0
  · rw [if_neg (by simp; omega), if_neg Bool.false_ne_true, if_pos rfl]
    by_cases hlimit : limit < body.length / 4 * 3 + 2
    · rw [if_pos hlimit, if_pos (.inr hlimit)]
    · rw [if_neg hlimit, if_neg (by omega)]
      rfl
  · rw [if_pos (by simp; omega), if_pos (.inl hbits)]

theorem acceptUnit_early (h : body.length % 4 < 2) : acceptUnit limit urlSafe (counted body) 61 = none := by
  unfold acceptUnit counted
  rw [if_neg Bool.false_ne_true, if_pos (.inr ⟨rfl, h⟩)]

theorem result_rest (hrest : ∀ u r, rest = u :: r → isLetter urlSafe u = false) :
    (accept limit urlSafe (counted body) rest).bind (result limit) =
      if body.length ≠ 0 ∧ body.length % 4 ≠ 1 ∧ Padded body.length rest ∧ looseBits body = 0 ∧
          body.length * 3 / 4 ≤ limit then some (body.length * 3 / 4) else none := by
  unfold Padded
  cases rest with
  | nil =>
    show result limit (counted body) = _
    rw [result_counted]
    exact if_congr (by simp) rfl rfl
  | cons u rest =>
    rw [accept_cons]
    by_cases hpad : u = 61
    · subst hpad
      by_cases htwo : body.length % 4 = 2
      · rw [acceptUnit_two htwo]
        by_cases hbits : looseBits body = 0
        · rw [if_neg (not_not_intro hbits)]
          show (accept limit urlSafe _ rest).bind (result limit) = _
          rw [result_second]
          have hbytes : body.length / 4 * 3 + 1 = body.length * 3 / 4 := by omega
          rw [hbytes]
          refine if_congr ⟨fun h => ?_, fun h => ⟨?_, h.2.2.2.2⟩⟩ rfl rfl
          · exact ⟨by omega, by omega, .inr (.inl ⟨htwo, by rw [h.1]⟩), hbits, h.2⟩
          · rcases h.2.2.1 with e | ⟨_, e⟩ | ⟨hthree, _⟩
            · cases e
            · exact (List.cons.inj e).2
            · omega
        · rw [if_pos hbits, if_neg fun h => hbits h.2.2.2.1]
          rfl
      · by_cases hthree : body.length % 4 = 3
        · rw [acceptUnit_three hthree]
          have hbytes : body.length / 4 * 3 + 2 = body.length * 3 / 4 := by omega
          rw [hbytes]
          by_cases hbad : looseBits body ≠ 0 ∨ limit < body.length * 3 / 4
          · rw [if_pos hbad, if_neg (by omega)]
            rfl
          · rw [if_neg hbad]
            show (accept limit urlSafe _ rest).bind (result limit) = _
            rw [result_closed]
            refine if_congr ⟨fun h => ?_, fun h => ⟨?_, by omega, by omega⟩⟩ rfl rfl
            · exact ⟨by omega, by omega, .inr (.inr ⟨hthree, by rw [h.1]⟩), by omega, h.2.2⟩
            · rcases h.2.2.1 with e | ⟨htwo', _⟩ | ⟨_, e⟩
              · cases e
              · omega
              · exact (List.cons.inj e).2
        · rw [acceptUnit_early (by omega), if_neg]
          · rfl
          · rintro ⟨h0, h1, hp, _⟩
            simp at hp
            omega
    · rw [acceptUnit_other (hrest u rest rfl) hpad, if_neg]
      · rfl
      · rintro ⟨_, _, hp, _⟩
        simp [hpad] at hp

end Base64Counter

/-- **The counter comes to the size of the text**, however it was cut. -/
theorem counter_size (limit : Nat) (urlSafe : Bool) (value : Text) :
    (Base64Counter.accept limit urlSafe .fresh value).bind (Base64Counter.result limit) =
      mediaSize urlSafe limit value := by
  unfold mediaSize
  obtain ⟨body, hbody⟩ : ∃ body, body = value.takeWhile (isLetter urlSafe) := ⟨_, rfl⟩
  obtain ⟨rest, hrest⟩ : ∃ rest, rest = value.dropWhile (isLetter urlSafe) := ⟨_, rfl⟩
  have hvalue : value = body ++ rest := by
    rw [hbody, hrest, List.takeWhile_append_dropWhile]
  have hletters : ∀ u ∈ body, isLetter urlSafe u = true := by
    rw [hbody]
    exact fun u hu => List.mem_takeWhile_imp hu
  have hhead : ∀ u r, rest = u :: r → isLetter urlSafe u = false := by
    intro u r e
    have hnot := List.head?_dropWhile_not (isLetter urlSafe) value
    rw [← hrest, e] at hnot
    simpa using hnot
  rw [← hbody, ← hrest]
  rw [hvalue, Base64Counter.accept_append, Base64Counter.accept_letters hletters]
  by_cases hlimit : limit < body.length / 4 * 3
  · rw [if_pos hlimit, if_neg (by omega)]
    rfl
  · rw [if_neg hlimit]
    exact Base64Counter.result_rest hhead

/-! ## 5. The check comes to it -/

theorem standard_letter (h : isLetter true u = true) : (sextet (standardUnit u)).isSome := by
  by_cases h45 : u = 45
  · subst h45
    decide
  · by_cases h95 : u = 95
    · subst h95
      decide
    · rw [standardUnit, if_neg h45, if_neg h95]
      simpa [isLetter, h45, h95] using h

theorem lastBits_eq (body : Text) : lastBits body = ((body.map standardUnit).getLast?.map bitsOf).getD 0 := by
  rw [lastBits, List.getLast?_map, Option.map_map]
  rfl

theorem tail_again (h : ∀ u ∈ t, (sextet u).isSome) (hlow : 2 ≤ t.length) (hhigh : t.length ≤ 4) :
    (atob (t ++ List.replicate ((4 - t.length % 4) % 4) padding)).map btoa =
        some (t ++ List.replicate ((4 - t.length % 4) % 4) padding) ↔
      (if t.length = 2 then (t.getLast?.map bitsOf).getD 0 % 16
        else if t.length = 3 then (t.getLast?.map bitsOf).getD 0 % 4 else 0) = 0 := by
  rw [atob_padded h (by omega), Option.map_some, Option.some.injEq]
  have hbits : ∀ u ∈ t, bitsOf u < 64 ∧ letter (bitsOf u) = u := fun u hu =>
    ⟨sextet_lt (sextet_eq (h u hu)), letter_sextet (sextet_eq (h u hu))⟩
  match t, hlow, hhigh with
  | [x, y], _, _ =>
    obtain ⟨hx, ex⟩ := hbits x (by simp)
    obtain ⟨hy, ey⟩ := hbits y (by simp)
    rw [List.map_cons, List.map_cons, List.map_nil, btoa_two hx hy, ex]
    show [x, letter (bitsOf y - bitsOf y % 16), padding, padding] = [x, y, padding, padding] ↔
      bitsOf y % 16 = 0
    constructor
    · intro e
      have e : letter (bitsOf y - bitsOf y % 16) = letter (bitsOf y) := by
        rw [ey]
        exact (List.cons.inj (List.cons.inj e).2).1
      have := letter_inj (by omega) hy e
      omega
    · intro e
      rw [e, Nat.sub_zero, ey]
  | [x, y, z], _, _ =>
    obtain ⟨hx, ex⟩ := hbits x (by simp)
    obtain ⟨hy, ey⟩ := hbits y (by simp)
    obtain ⟨hz, ez⟩ := hbits z (by simp)
    rw [List.map_cons, List.map_cons, List.map_cons, List.map_nil, btoa_three hx hy hz, ex, ey]
    show [x, y, letter (bitsOf z - bitsOf z % 4), padding] = [x, y, z, padding] ↔ bitsOf z % 4 = 0
    constructor
    · intro e
      have e : letter (bitsOf z - bitsOf z % 4) = letter (bitsOf z) := by
        rw [ez]
        exact (List.cons.inj (List.cons.inj (List.cons.inj e).2).2).1
      have := letter_inj (by omega) hz e
      omega
    · intro e
      rw [e, Nat.sub_zero, ez]
  | [x, y, z, w], _, _ =>
    obtain ⟨hx, ex⟩ := hbits x (by simp)
    obtain ⟨hy, ey⟩ := hbits y (by simp)
    obtain ⟨hz, ez⟩ := hbits z (by simp)
    obtain ⟨hw, ew⟩ := hbits w (by simp)
    rw [List.map_cons, List.map_cons, List.map_cons, List.map_cons, List.map_nil, btoa_four hx hy hz
      hw, ex, ey, ez, ew]
    exact ⟨fun _ => rfl, fun _ => by simp⟩

theorem last_letters (h0 : t.length ≠ 0) (h1 : t.length % 4 ≠ 1) :
    ∃ front letters, t = front ++ letters ∧ front.length % 4 = 0 ∧ 2 ≤ letters.length ∧
      letters.length ≤ 4 := by
  obtain ⟨m, hm⟩ : ∃ m, m = if t.length % 4 = 0 then 4 else t.length % 4 := ⟨_, rfl⟩
  have hle : m ≤ t.length ∧ 2 ≤ m ∧ m ≤ 4 ∧ (t.length - m) % 4 = 0 := by
    rw [hm]
    split_ifs <;> omega
  refine ⟨t.take (t.length - m), t.drop (t.length - m), (List.take_append_drop _ _).symm, ?_, ?_, ?_⟩
  · rw [List.length_take]
    omega
  · rw [List.length_drop]
    omega
  · rw [List.length_drop]
    omega

theorem tail_iff (h : ∀ u ∈ body, isLetter true u = true) (h0 : body.length ≠ 0)
    (h1 : body.length % 4 ≠ 1) {canonical : Text} (hcanonical : canonical =
      body.map standardUnit ++ List.replicate ((4 - body.length % 4) % 4) padding) :
    (atob (lastFour canonical)).map btoa = some (lastFour canonical) ↔ looseBits body = 0 := by
  obtain ⟨front, letters, hsplit, hfront, hlow, hhigh⟩ :=
    last_letters (t := body.map standardUnit) (by rwa [List.length_map]) (by rwa [List.length_map])
  have hlength := congrArg List.length hsplit
  rw [List.length_map, List.length_append] at hlength
  have hmod : body.length % 4 = letters.length % 4 := by omega
  have hsextet : ∀ u ∈ letters, (sextet u).isSome := by
    intro u hu
    have hu : u ∈ body.map standardUnit := by
      rw [hsplit]
      exact List.mem_append_right _ hu
    obtain ⟨v, hv, rfl⟩ := List.mem_map.mp hu
    exact standard_letter (h v hv)
  have hfour : lastFour canonical = letters ++ List.replicate ((4 - letters.length % 4) % 4) padding := by
    rw [hcanonical, hsplit, hmod, List.append_assoc, lastFour]
    refine List.drop_left' ?_
    simp only [List.length_append, List.length_replicate]
    omega
  have hlast : lastBits body = (letters.getLast?.map bitsOf).getD 0 := by
    have hne : letters ≠ [] := by
      rintro rfl
      simp at hlow
    rw [lastBits_eq, hsplit, List.getLast?_append_of_ne_nil _ hne]
  rw [hfour, tail_again hsextet hlow hhigh, looseBits, hlast, hmod]
  have htwo : letters.length = 2 ↔ letters.length % 4 = 2 := by omega
  have hthree : letters.length = 3 ↔ letters.length % 4 = 3 := by omega
  simp only [htwo, hthree]

theorem dropWhile_padding (ht : ∀ u ∈ t, u ≠ 61) (hrest : ∀ u ∈ rest, u = 61) :
    ((t ++ rest).reverse.dropWhile (· = 61)).reverse = t := by
  rw [List.reverse_append, List.dropWhile_append_of_pos fun u hu => decide_eq_true
    (hrest u (List.mem_reverse.mp hu))]
  have hstay : t.reverse.dropWhile (· = 61) = t.reverse := by
    cases hrev : t.reverse with
    | nil => rfl
    | cons u more =>
      refine List.dropWhile_cons_of_neg ?_
      have hu : u ∈ t := List.mem_reverse.mp (hrev ▸ List.mem_cons_self)
      simpa using ht u hu
  rw [hstay, List.reverse_reverse]

/-- The letters and the rest of a text that may be base64. -/
structure Parts (value body rest : Text) : Prop where
  split : value = body ++ rest
  letters : ∀ u ∈ body, isLetter true u = true
  rest : rest = [] ∨ rest = [61] ∨ rest = [61, 61]

section

variable (h : Parts value body rest)
include h

theorem Parts.standard : value.map standardUnit = body.map standardUnit ++ rest := by
  rw [h.split, List.map_append]
  congr 1
  rcases h.rest with rfl | rfl | rfl <;> rfl

theorem Parts.not_padding : ∀ u ∈ body.map standardUnit, u ≠ 61 := by
  rintro u hu rfl
  obtain ⟨v, hv, e⟩ := List.mem_map.mp hu
  have hletter := standard_letter (h.letters v hv)
  rw [e] at hletter
  exact absurd hletter (by decide)

theorem Parts.unpadded :
    ((value.map standardUnit).reverse.dropWhile (· = 61)).reverse = body.map standardUnit := by
  rw [h.standard]
  refine dropWhile_padding h.not_padding fun u hu => ?_
  rcases h.rest with rfl | rfl | rfl <;> simp at hu <;> exact hu

theorem Parts.padding_mem : 61 ∈ value.map standardUnit ↔ rest ≠ [] := by
  rw [h.standard, List.mem_append]
  constructor
  · rintro (hbody | hrest) rfl
    · exact h.not_padding 61 hbody rfl
    · cases hrest
  · intro hne
    rcases h.rest with rfl | rfl | rfl
    · exact absurd rfl hne
    · exact .inr List.mem_cons_self
    · exact .inr List.mem_cons_self

theorem padded_iff : Padded body.length rest ↔ (rest ≠ [] → value.length % 4 = 0 ∧
      value.map standardUnit = body.map standardUnit ++ List.replicate ((4 - body.length % 4) % 4)
        padding) := by
  rw [h.standard, h.split, List.length_append, List.append_cancel_left_eq]
  unfold Padded
  rcases h.rest with rfl | rfl | rfl
  · simp
  · constructor
    · rintro (e | ⟨_, e⟩ | ⟨hthree, _⟩) _
      · cases e
      · cases e
      · rw [hthree]
        refine ⟨?_, rfl⟩
        rw [List.length_singleton]
        omega
    · intro hpadded
      have hlen := (hpadded (List.cons_ne_nil _ _)).1
      rw [List.length_singleton] at hlen
      exact .inr (.inr ⟨by omega, rfl⟩)
  · constructor
    · rintro (e | ⟨htwo, _⟩ | ⟨_, e⟩) _
      · cases e
      · rw [htwo]
        refine ⟨?_, rfl⟩
        rw [List.length_cons, List.length_singleton]
        omega
      · cases e
    · intro hpadded
      have hlen := (hpadded (List.cons_ne_nil _ _)).1
      rw [List.length_cons, List.length_singleton] at hlen
      exact .inr (.inl ⟨by omega, rfl⟩)

end

structure Measured (limit : Nat) (value body rest : Text) : Prop where
  parts : Parts value body rest
  nonempty : body.length ≠ 0
  letters : body.length % 4 ≠ 1
  padded : Padded body.length rest
  tight : looseBits body = 0
  size : body.length * 3 / 4 ≤ limit

def canonicalOf (body : Text) : CanonicalBase64 :=
  ⟨body.map standardUnit ++ List.replicate ((4 - body.length % 4) % 4) padding, body.length * 3 / 4⟩

theorem takeWhile_letters (hletters : ∀ u ∈ body, isLetter urlSafe u = true)
    (hrest : ∀ u r, rest = u :: r → isLetter urlSafe u = false) :
    (body ++ rest).takeWhile (isLetter urlSafe) = body ∧
      (body ++ rest).dropWhile (isLetter urlSafe) = rest := by
  rw [List.takeWhile_append_of_pos hletters, List.dropWhile_append_of_pos hletters]
  cases rest with
  | nil => exact ⟨List.append_nil _, rfl⟩
  | cons u r =>
    have hu := hrest u r rfl
    rw [List.takeWhile_cons_of_neg (by simp [hu]), List.dropWhile_cons_of_neg (by simp [hu])]
    exact ⟨List.append_nil _, rfl⟩

theorem Parts.whole (h : Parts value body rest) :
    value.takeWhile (isLetter true) = body ∧ value.dropWhile (isLetter true) = rest := by
  rw [h.split]
  refine takeWhile_letters h.letters fun u r e => ?_
  rcases h.rest with rfl | rfl | rfl
  · cases e
  · cases e
    rfl
  · cases e
    rfl

theorem length_le_of_size {n : Nat} (h1 : n % 4 ≠ 1) (h : n * 3 / 4 ≤ limit) :
    (n % 4 = 0 → n ≤ (limit + 2) / 3 * 4) ∧ (n % 4 ≠ 0 → n / 4 * 4 + 4 ≤ (limit + 2) / 3 * 4) := by
  have hsize : n * 3 / 4 = n / 4 * 3 + (n % 4 - 1) := by omega
  constructor
  · intro e
    have : n / 4 ≤ (limit + 2) / 3 := by omega
    omega
  · intro e
    have : n / 4 + 1 ≤ (limit + 2) / 3 := by omega
    omega

theorem canonical_of_measured (h : Measured limit value body rest) :
    canonicalMediaBase64 value limit = some (canonicalOf body) := by
  obtain ⟨hparts, h0, h1, hpadded, htight, hsize⟩ := h
  obtain ⟨htake, hdrop⟩ := hparts.whole
  have hlength : value.length = body.length + rest.length := by
    rw [hparts.split, List.length_append]
  have hrestlen : rest.length = 0 ∨ body.length % 4 = 2 ∧ rest.length = 2 ∨ body.length % 4 = 3 ∧
    rest.length = 1 := by
    rcases hpadded with rfl | ⟨e, rfl⟩ | ⟨e, rfl⟩
    · exact .inl rfl
    · exact .inr (.inl ⟨e, rfl⟩)
    · exact .inr (.inr ⟨e, rfl⟩)
  have hfits := (padded_iff hparts).mp hpadded
  unfold canonicalMediaBase64
  dsimp only
  rw [htake, hdrop, hparts.unpadded, List.length_map, List.length_map]
  have hlong := length_le_of_size h1 hsize
  rw [if_neg]
  · rw [if_neg]
    · rw [if_neg]
      · rw [if_neg (not_lt.mpr hsize)]
        rfl
      · rintro (⟨hmem, hne⟩ | htail)
        · exact hne (hfits (hparts.padding_mem.mp hmem)).2
        · exact htail ((tail_iff hparts.letters h0 h1 rfl).mpr htight)
    · rintro (e | ⟨hmem, hne⟩)
      · exact h1 e
      · exact hne (hfits (hparts.padding_mem.mp hmem)).1
  · rintro (e | e | e | e)
    · omega
    · omega
    · exact h0 (by rw [e]; rfl)
    · exact e hparts.rest

theorem measured_of_canonical {canonical : CanonicalBase64}
    (h : canonicalMediaBase64 value limit = some canonical) :
    Measured limit value (value.takeWhile (isLetter true)) (value.dropWhile (isLetter true)) := by
  unfold canonicalMediaBase64 at h
  dsimp only at h
  split at h
  · cases h
  · rename_i hshape
    obtain ⟨body, hbody⟩ : ∃ body, body = value.takeWhile (isLetter true) := ⟨_, rfl⟩
    obtain ⟨rest, hrest⟩ : ∃ rest, rest = value.dropWhile (isLetter true) := ⟨_, rfl⟩
    rw [← hbody, ← hrest] at hshape ⊢
    have hparts : Parts value body rest := by
      refine ⟨by rw [hbody, hrest, List.takeWhile_append_dropWhile], fun u hu => ?_, ?_⟩
      · rw [hbody] at hu
        exact List.mem_takeWhile_imp hu
      · refine Classical.byContradiction fun hno => hshape (.inr (.inr (.inr hno)))
    have h0 : body.length ≠ 0 := fun e =>
      hshape (.inr (.inr (.inl (List.length_eq_zero_iff.mp e))))
    rw [hparts.unpadded, List.length_map, List.length_map] at h
    split at h
    · cases h
    · rename_i hquartets
      have h1 : body.length % 4 ≠ 1 := fun e => hquartets (.inl e)
      split at h
      · cases h
      · rename_i hcanonical
        split at h
        · cases h
        · rename_i hsize
          refine ⟨hparts, h0, h1, (padded_iff hparts).mpr fun hne => ⟨?_, ?_⟩, ?_, not_lt.mp hsize⟩
          · exact Classical.byContradiction fun e => hquartets (.inr ⟨hparts.padding_mem.mpr hne, e⟩)
          · exact Classical.byContradiction fun e => hcanonical (.inl ⟨hparts.padding_mem.mpr hne, e⟩)
          · refine (tail_iff hparts.letters h0 h1 rfl).mp ?_
            exact Classical.byContradiction fun e => hcanonical (.inr e)

theorem mediaSize_of_measured (h : Measured limit value body rest) :
    mediaSize true limit value = some (body.length * 3 / 4) := by
  unfold mediaSize
  rw [h.parts.whole.1, h.parts.whole.2]
  exact if_pos ⟨h.nonempty, h.letters, h.padded, h.tight, h.size⟩

/-- **The check comes to the size of the text.** -/
theorem canonical_size (limit : Nat) (value : Text) :
    (canonicalMediaBase64 value limit).map (·.decodedBytes) = mediaSize true limit value := by
  cases hcanonical : canonicalMediaBase64 value limit with
  | some canonical =>
    have hmeasured := measured_of_canonical hcanonical
    rw [canonical_of_measured hmeasured] at hcanonical
    cases hcanonical
    rw [mediaSize_of_measured hmeasured]
    rfl
  | none =>
    symm
    refine if_neg fun ⟨h0, h1, hpadded, htight, hsize⟩ => ?_
    have hparts : Parts value (value.takeWhile (isLetter true)) (value.dropWhile (isLetter true)) := by
      refine ⟨(List.takeWhile_append_dropWhile ..).symm, fun u hu => List.mem_takeWhile_imp hu, ?_⟩
      rcases hpadded with e | ⟨_, e⟩ | ⟨_, e⟩
      · exact .inl e
      · exact .inr (.inr e)
      · exact .inr (.inl e)
    rw [canonical_of_measured ⟨hparts, h0, h1, hpadded, htight, hsize⟩] at hcanonical
    cases hcanonical

theorem canonical_decodes {canonical : CanonicalBase64}
    (h : canonicalMediaBase64 value limit = some canonical) :
    ∃ bytes, atob canonical.base64 = some bytes ∧ bytes.length = canonical.decodedBytes := by
  have hmeasured := measured_of_canonical h
  rw [canonical_of_measured hmeasured] at h
  cases h
  have hsextet : ∀ u ∈ (value.takeWhile (isLetter true)).map standardUnit, (sextet u).isSome := by
    intro u hu
    obtain ⟨v, hv, rfl⟩ := List.mem_map.mp hu
    exact standard_letter (hmeasured.parts.letters v hv)
  have hread := atob_padded hsextet (by rw [List.length_map]; exact hmeasured.letters)
  rw [List.length_map] at hread
  refine ⟨_, hread, ?_⟩
  rw [bytesOf_length, List.length_map, List.length_map]
  rfl

/-! ## 6. The two alphabets -/

def urlOnly (u : UInt16) : Bool := u = 45 || u = 95

theorem isLetter_standard (u : UInt16) : isLetter false u = (isLetter true u && !urlOnly u) := by
  by_cases h45 : u = 45
  · subst h45
    decide
  · by_cases h95 : u = 95
    · subst h95
      decide
    · simp [isLetter, urlOnly, h45, h95]

theorem letters_congr {p q : UInt16 → Bool} (h : ∀ u ∈ t, p u = q u) :
    t.takeWhile p = t.takeWhile q ∧ t.dropWhile p = t.dropWhile q := by
  induction t with
  | nil => exact ⟨rfl, rfl⟩
  | cons u t ih =>
    obtain ⟨htake, hdrop⟩ := ih fun v hv => h v (List.mem_cons_of_mem _ hv)
    have hu := h u List.mem_cons_self
    cases hq : q u with
    | true =>
      rw [hq] at hu
      rw [List.takeWhile_cons_of_pos hu, List.takeWhile_cons_of_pos hq,
        List.dropWhile_cons_of_pos hu, List.dropWhile_cons_of_pos hq, htake]
      exact ⟨rfl, hdrop⟩
    | false =>
      rw [hq] at hu
      simp [hu, hq]

theorem mediaSize_standard (limit : Nat) (value : Text) :
    mediaSize false limit value = if value.any urlOnly then none else mediaSize true limit value := by
  by_cases hany : value.any urlOnly = true
  · rw [if_pos hany]
    refine if_neg fun ⟨_, _, hpadded, _, _⟩ => ?_
    -- a unit of the other alphabet is no letter and no padding
    obtain ⟨u, hu, hurl⟩ := List.any_eq_true.mp hany
    rw [← @List.takeWhile_append_dropWhile _ (isLetter false) value] at hu
    rcases List.mem_append.mp hu with hu | hu
    · have hletter := List.mem_takeWhile_imp hu
      rw [isLetter_standard, hurl, Bool.not_true, Bool.and_false] at hletter
      cases hletter
    · have hpad : ∀ v ∈ value.dropWhile (isLetter false), v = 61 := by
        rcases hpadded with e | ⟨_, e⟩ | ⟨_, e⟩ <;> rw [e] <;> simp
      rw [hpad u hu] at hurl
      cases hurl
  · rw [if_neg hany]
    have hsame : ∀ u ∈ value, isLetter false u = isLetter true u := by
      intro u hu
      have hurl : urlOnly u = false := Bool.eq_false_iff.mpr fun h => hany (List.any_eq_true.mpr ⟨u, hu, h⟩)
      rw [isLetter_standard, hurl, Bool.not_false, Bool.and_true]
    unfold mediaSize
    rw [(letters_congr hsame).1, (letters_congr hsame).2]

/-- **Counting is checking.** However a text is cut, the counter accepts what the check accepts, of the
    alphabet it is made for, and counts the bytes that the check decodes. -/
theorem counter_eq_canonical (limit : Nat) (urlSafe : Bool) (parts : List Text) :
    (parts.foldlM (Base64Counter.accept limit urlSafe) .fresh).bind (Base64Counter.result limit) =
      if !urlSafe && parts.flatten.any urlOnly then none
      else (canonicalMediaBase64 parts.flatten limit).map (·.decodedBytes) := by
  have hcut : ∀ s, parts.foldlM (Base64Counter.accept limit urlSafe) s =
      Base64Counter.accept limit urlSafe s parts.flatten := by
    induction parts with
    | nil => exact fun _ => rfl
    | cons part parts ih =>
      intro s
      rw [List.flatten_cons, Base64Counter.accept_append, List.foldlM_cons]
      exact congrArg _ (funext ih)
  rw [hcut, counter_size, canonical_size]
  cases urlSafe with
  | true => rfl
  | false => rw [mediaSize_standard, Bool.not_false, Bool.true_and]

end ClawRouter.Music
