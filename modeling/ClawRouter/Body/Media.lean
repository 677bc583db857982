/-
  Subject:   A JSON body whose media strings are spliced into a skeleton (src/worker/json-body.ts,
             `mediaJsonBody` and `plainChunks`), and what it does to the value of its caller.

  A value is a tree, as `JSON.parse` builds it; an object of the source is the path to it from the root.

  * `Walk.Sound`, **`slotsOf_sound`**, **`slotsOf_total`**: the slots hold long strings, and all of them;
  * **`restore_swap`**: the value is what it was;
  * `Swapped`, **`swap_swapped`**: the skeleton is the value with markers for media.
-/
import ClawRouter.Body.Chunks
import ClawRouter.Inspect.Tokens
import ClawRouter.Lib.Search

namespace ClawRouter.Body

open Utf16 PlainJson Search

/-! ## 1. The slots -/

def mediaChars : Nat := 64 * 1024
def mediaChunk : Nat := 64 * 1024
def mediaMinimum : Nat := 1024 * 1024

/-- Where a value stands in its owner. -/
inductive Key
  | index (i : Nat)
  | name (key : Text)
  deriving DecidableEq

abbrev Path := List Key

/-- A place where media stood. -/
structure Slot where
  owner : Path
  key : Key
  value : Text

def Slot.path (slot : Slot) : Path := slot.owner ++ [slot.key]

/-- The own keys of an array or an object in their order, with what it holds there. -/
def entries : Value → List (Key × Option Value)
  | .arr items => items.zipIdx.map fun item => (.index item.2, item.1)
  | .obj members => members.map fun m => (.name m.1, m.2)
  | _ => []

mutual

/-- A sum over the strings and the containers of a value. -/
def tally (leaf : Text → Nat) (node : Nat) : Value → Nat
  | .str s => leaf s
  | .arr items => node + tallyItems leaf node items
  | .obj members => node + tallyMembers leaf node members
  | .null => 0
  | .bool _ => 0
  | .num _ => 0

def tallyItems (leaf : Text → Nat) (node : Nat) : List (Option Value) → Nat
  | [] => 0
  | none :: rest => tallyItems leaf node rest
  | some item :: rest => tally leaf node item + tallyItems leaf node rest

def tallyMembers (leaf : Text → Nat) (node : Nat) : List (Text × Option Value) → Nat
  | [] => 0
  | (_, none) :: rest => tallyMembers leaf node rest
  | (_, some item) :: rest => tally leaf node item + tallyMembers leaf node rest

end

def containers : Value → Nat := tally (fun _ => 0) 1

/-- The walk over a value, with what is to do. -/
structure Walk where
  /-- The one pushed last comes first. -/
  pending : List (Path × Value)
  slots : List Slot
  total : Nat

namespace Walk

/-- One turn of the loop over the keys of `owner`, which is at `path`. -/
def visit (path : Path) (w : Walk) : Key × Option Value → Walk
  | (key, some (.str item)) =>
    if mediaChars ≤ item.length then
      { w with slots := w.slots ++ [⟨path, key, item⟩], total := w.total + item.length }
    else w
  | (key, some (.arr items)) => { w with pending := (path ++ [key], .arr items) :: w.pending }
  | (key, some (.obj members)) => { w with pending := (path ++ [key], .obj members) :: w.pending }
  | _ => w

def due (f : Value → Nat) (w : Walk) : Nat := (w.pending.map fun p => f p.2).sum

end Walk

def held (f : Value → Nat) (item : Option Value) : Nat := item.elim 0 f

theorem tallyItems_eq (leaf : Text → Nat) (node : Nat) (items : List (Option Value)) :
    tallyItems leaf node items = (items.map (held (tally leaf node))).sum := by
  induction items with
  | nil => rfl
  | cons item rest ih =>
    rw [List.map_cons, List.sum_cons, ← ih]
    cases item with
    | none => exact (Nat.zero_add _).symm
    | some item => rfl

theorem tallyMembers_eq (leaf : Text → Nat) (node : Nat) (members : List (Text × Option Value)) :
    tallyMembers leaf node members = (members.map fun m => held (tally leaf node) m.2).sum := by
  induction members with
  | nil => rfl
  | cons m rest ih =>
    obtain ⟨key, item⟩ := m
    rw [List.map_cons, List.sum_cons, ← ih]
    cases item with
    | none => exact (Nat.zero_add _).symm
    | some item => rfl

theorem sum_entries (f : Value → Nat) : ∀ owner : Value, ((entries owner).map fun e => held f e.2).sum =
    match owner with
    | .arr items => (items.map (held f)).sum
    | .obj members => (members.map fun m => held f m.2).sum
    | _ => 0
  | .arr items => by
    show ((items.zipIdx.map fun item => (Key.index item.2, item.1)).map fun e => held f e.2).sum = _
    rw [List.map_map]
    show ((items.zipIdx.map (held f ∘ Prod.fst))).sum = _
    rw [← List.map_map, List.zipIdx_map_fst]
  | .obj members => by
    show ((members.map fun m => (Key.name m.1, m.2)).map fun e => held f e.2).sum = _
    rw [List.map_map]
    rfl
  | .null | .bool _ | .num _ => rfl
  | .str _ => rfl

theorem containers_entries (owner : Value) :
    ((entries owner).map fun e => held containers e.2).sum ≤ containers owner ∧
    (entries owner ≠ [] → ((entries owner).map fun e => held containers e.2).sum < containers owner) := by
  have hsum := sum_entries containers owner
  cases owner with
  | arr items =>
    have hall : containers (.arr items) = 1 + (items.map (held containers)).sum :=
      congrArg (1 + ·) (tallyItems_eq _ _ items)
    rw [hsum, hall]
    dsimp only
    omega
  | obj members =>
    have hall : containers (.obj members) = 1 + (members.map fun m => held containers m.2).sum :=
      congrArg (1 + ·) (tallyMembers_eq _ _ members)
    rw [hsum, hall]
    dsimp only
    omega
  | null | bool b | num n => exact ⟨Nat.le_refl 0, fun h => absurd rfl h⟩
  | str s => exact ⟨Nat.zero_le _, fun h => absurd rfl h⟩

variable {path : Path} {owner root value : Value}

namespace Walk

def pushed (f : Value → Nat) : Option Value → Nat
  | some (.arr items) => f (.arr items)
  | some (.obj members) => f (.obj members)
  | _ => 0

theorem due_visit (f : Value → Nat) (path : Path) (w : Walk) (e : Key × Option Value) :
    due f (w.visit path e) = due f w + pushed f e.2 := by
  obtain ⟨key, item⟩ := e
  rcases item with _ | ⟨⟨⟩ | b | n | s | items | members⟩
  · rfl
  · rfl
  · rfl
  · rfl
  · show due f (if mediaChars ≤ s.length then _ else w) = _
    split <;> rfl
  · exact Nat.add_comm _ _
  · exact Nat.add_comm _ _

theorem due_visits (f : Value → Nat) (path : Path) (es : List (Key × Option Value)) (w : Walk) :
    due f (es.foldl (visit path) w) = due f w + (es.map fun e => pushed f e.2).sum := by
  induction es generalizing w with
  | nil => rfl
  | cons e es ih =>
    rw [List.foldl_cons, ih, due_visit, List.map_cons, List.sum_cons, Nat.add_assoc]

theorem pushed_containers (es : List (Key × Option Value)) :
    (es.map fun e => pushed containers e.2) = es.map fun e => held containers e.2 := by
  refine List.map_congr_left fun e _ => ?_
  rcases e with ⟨key, _ | ⟨⟨⟩ | b | n | s | items | members⟩⟩ <;> rfl

/-- A turn of the outer loop leaves fewer containers to come, or is the pop of something that is none. -/
theorem turn_decreases {w : Walk} {rest : List (Path × Value)} (h : w.pending = (path, owner) :: rest) :
    let next := (entries owner).foldl (visit path) { w with pending := rest }
    due containers next < due containers w ∨
      due containers next = due containers w ∧ next.pending.length < w.pending.length := by
  have hdue : due containers w = containers owner + due containers { w with pending := rest } := by
    unfold due
    rw [h]
    rfl
  obtain ⟨hle, hlt⟩ := containers_entries owner
  dsimp only
  rw [due_visits, pushed_containers, hdue]
  by_cases hnone : entries owner = []
  · rw [hnone] at hle hlt ⊢
    rw [List.foldl_nil, h]
    simp only [List.map_nil, List.sum_nil, Nat.add_zero, List.length_cons] at hle ⊢
    rcases Nat.eq_zero_or_pos (containers owner) with h0 | hpos
    · right
      exact ⟨by omega, Nat.lt_succ_self _⟩
    · left
      omega
  · left
    have := hlt hnone
    omega

def run (w : Walk) : Walk :=
  match _h : w.pending with
  | [] => w
  | (path, owner) :: rest => run ((entries owner).foldl (visit path) { w with pending := rest })
termination_by (due containers w, w.pending.length)
decreasing_by
  rcases turn_decreases ‹_› with hlt | ⟨heq, hlt⟩
  · exact Prod.Lex.left _ _ hlt
  · rw [heq]
    exact Prod.Lex.right _ hlt

end Walk

def slotsOf (value : Value) : Walk := Walk.run ⟨[([], value)], [], 0⟩

/-! ## 2. The body -/

/-- A text as `randomUUID` gives it. -/
structure Uuid where
  text : Text
  length : text.length = 36
  /-- Hexadecimal digits and hyphens. -/
  plain : ∀ u ∈ text, Inspect.isDigit u = true ∨ (0x61 ≤ u.toNat ∧ u.toNat ≤ 0x66) ∨ u = 0x2d

def markerName : Text := Js.text "clawrouter-media-"

def marker (uuid : Uuid) : Text := 0 :: (markerName ++ (uuid.text ++ [0x2d]))

def digits (n : Nat) : Text :=
  if n < 10 then [UInt16.ofNat (48 + n)] else digits (n / 10) ++ [UInt16.ofNat (48 + n % 10)]
termination_by n
decreasing_by omega

def numberOfDigits (t : Text) : Option Nat := if t.all Inspect.isDigit then some (Inspect.natOf t) else none

/-- The assignment of a string to what stands at a path. -/
def assign (s : Text) : Path → Value → Value
  | [], _ => .str s
  | .index i :: path, .arr items => .arr (items.modify i (Option.map (assign s path)))
  | .name key :: path, .obj members =>
    .obj (members.map fun m => if m.1 = key then (m.1, m.2.map (assign s path)) else m)
  | _ :: _, value => value

def swap (marker : Text) (slots : List Slot) (value : Value) : Value :=
  slots.zipIdx.foldl (fun value slot => assign (marker ++ digits slot.2) slot.1.path value) value

def restore (slots : List Slot) (value : Value) : Value :=
  slots.foldl (fun value slot => assign slot.value slot.path value) value

/-- A unit that `JSON.stringify` writes as it is and that is one byte: `[\x20\x21\x23-\x5b\x5d-\x7e]`. -/
def isPlain (u : UInt16) : Bool :=
  let n := u.toNat
  n == 0x20 || n == 0x21 || (0x23 ≤ n && n ≤ 0x5b) || (0x5d ≤ n && n ≤ 0x7e)

def unplain (t : Text) : Bool := t.any fun u => !isPlain u

/-- A part of the body: bytes, or a text in base64. -/
inductive Piece
  | bytes (piece : List UInt8)
  | media (text : Text)

inductive MediaFailure
  /-- `JSON.stringify` throws. -/
  | stringify
  /-- A `TypeError`. -/
  | type
  deriving DecidableEq

/-- A body whose media are streamed. -/
structure MediaJsonBody where
  bytes : Nat
  pieces : List Piece

def mediaBytes (media : Text) : Nat := if unplain media then quotedBytes media else media.length + 2

def needle (marker : Text) : Text := 0x22 :: inner (quote marker)

/-- The search for the markers, from an offset on: what is left of the skeleton there. -/
def splice (needle : Text) (slots : List Slot) (skeleton : Text) : Except MediaFailure MediaJsonBody :=
  match indexOf needle skeleton with
  | none => .ok ⟨(encode skeleton).length, [.bytes (encode skeleton)]⟩
  | some start =>
    let named := skeleton.drop (start + needle.length)
    match _h : indexOf [0x22] named with
    | none => .error .type
    | some stop =>
      match (numberOfDigits (named.take stop)).bind (slots[·]?) with
      | none => .error .type
      | some slot => do
        let piece := encode (skeleton.take start)
        let rest ← splice needle slots (named.drop (stop + 1))
        .ok ⟨piece.length + mediaBytes slot.value + rest.bytes, .bytes piece :: .media slot.value ::
          rest.pieces⟩
termination_by skeleton.length
decreasing_by
  have hlt := indexOf_lt ‹_›
  rw [List.length_drop] at hlt ⊢
  rw [List.length_drop]
  omega

/-- What is returned or thrown, and the value of the caller then. `JSON.stringify` may throw: a
    value nests too
deep for it, or its text is too long. -/
def mediaJsonBody (throws : Value → Bool) (uuid : Uuid) (value : Value) :
    Except MediaFailure (Option MediaJsonBody) × Value :=
  let walk := slotsOf value
  if walk.total < mediaMinimum then (.ok none, value)
  else
    let swapped := swap (marker uuid) walk.slots value
    let value := restore walk.slots swapped
    if throws swapped then (.error .stringify, value)
    else ((splice (needle (marker uuid)) walk.slots (stringify swapped)).map some, value)

/-! ## 3. The stream -/

/-- `value.slice(offset, offset + mediaChunk)` for each turn of the loop. -/
def plainSlices : Text → List Text
  | [] => []
  | u :: rest => (u :: rest).take mediaChunk :: plainSlices ((u :: rest).drop mediaChunk)
termination_by t => t.length
decreasing_by
  rw [List.length_drop]
  exact Nat.sub_lt (Nat.succ_pos _) (by decide)

def plainChunks (value : Text) : List Text := [0x22] :: plainSlices value ++ [[0x22]]

def mediaChunks (media : Text) : List Text := if unplain media then quoted media else plainChunks media

/-- One pull: what is enqueued, and the chunks and pieces that are left. -/
def pull (chunks : Option (List Text)) : List Piece → Option (List UInt8 × Option (List Text) × List Piece)
  | [] => none
  | .bytes piece :: rest => if piece ≠ [] then some (piece, chunks, rest) else pull chunks rest
  | .media text :: rest =>
    match chunks.getD (mediaChunks text) with
    | chunk :: later => some (encode chunk, some later, .media text :: rest)
    | [] => pull none rest

def turns (chunks : Option (List Text)) : List Piece → Nat
  | [] => 0
  | .bytes _ :: rest => 1 + turns chunks rest
  | .media text :: rest => 1 + (chunks.getD (mediaChunks text)).length + turns none rest

theorem pull_turns {chunks later : Option (List Text)} {pieces rest : List Piece} {bytes : List UInt8}
    (h : pull chunks pieces = some (bytes, later, rest)) : turns later rest < turns chunks pieces := by
  induction pieces generalizing chunks with
  | nil => cases h
  | cons piece pieces ih =>
    cases piece with
    | bytes piece =>
      unfold pull at h
      show _ < 1 + turns chunks pieces
      split at h
      · cases h
        omega
      · have := ih h
        omega
    | media text =>
      unfold pull at h
      show _ < 1 + (chunks.getD (mediaChunks text)).length + turns none pieces
      cases hchunks : chunks.getD (mediaChunks text) with
      | nil =>
        rw [hchunks] at h
        have := ih h
        omega
      | cons chunk more =>
        rw [hchunks] at h
        cases h
        show 1 + more.length + turns none pieces < 1 + (more.length + 1) + turns none pieces
        omega

/-- What a reader receives, pull by pull until the stream is closed. -/
def received (chunks : Option (List Text)) (pieces : List Piece) : List (List UInt8) :=
  match _h : pull chunks pieces with
  | none => []
  | some (bytes, later, rest) => bytes :: received later rest
termination_by turns chunks pieces
decreasing_by exact pull_turns ‹_›

def MediaJsonBody.stream (body : MediaJsonBody) : List (List UInt8) := received none body.pieces

/-! ## 4. What stands at a path -/

/-- Whatever stands at the path has the property. -/
def At (P : Value → Prop) : Path → Value → Prop
  | [], value => P value
  | .index i :: path, .arr items => ∀ item, items[i]? = some (some item) → At P path item
  | .name key :: path, .obj members => ∀ m ∈ members, m.1 = key → ∀ item, m.2 = some item → At P path item
  | _ :: _, _ => True

theorem At.mono {P Q : Value → Prop} (h : ∀ value, P value → Q value) (hat : At P path value) :
    At Q path value := by
  induction path generalizing value with
  | nil => exact h value hat
  | cons key path ih =>
    cases key with
    | index i =>
      cases value with
      | arr items => exact fun item hitem => ih (hat item hitem)
      | _ => exact trivial
    | name key =>
      cases value with
      | obj members => exact fun m hm hkey item hitem => ih (hat m hm hkey item hitem)
      | _ => exact trivial

theorem At.append {P : Value → Prop} {later : Path} (h : At (At P later) path value) :
    At P (path ++ later) value := by
  induction path generalizing value with
  | nil => exact h
  | cons key path ih =>
    cases key with
    | index i =>
      cases value with
      | arr items => exact fun item hitem => ih (h item hitem)
      | _ => exact trivial
    | name key =>
      cases value with
      | obj members => exact fun m hm hkey item hitem => ih (h m hm hkey item hitem)
      | _ => exact trivial

mutual

def Parsed : Value → Prop
  | .arr items => ItemsParsed items
  | .obj members => (members.map Prod.fst).Nodup ∧ MembersParsed members
  | .null => True
  | .bool _ => True
  | .num _ => True
  | .str _ => True

def ItemsParsed : List (Option Value) → Prop
  | [] => True
  | none :: rest => ItemsParsed rest
  | some item :: rest => Parsed item ∧ ItemsParsed rest

def MembersParsed : List (Text × Option Value) → Prop
  | [] => True
  | (_, none) :: rest => MembersParsed rest
  | (_, some item) :: rest => Parsed item ∧ MembersParsed rest

end

theorem ItemsParsed.item {items : List (Option Value)} (h : ItemsParsed items) {item : Value}
    (hitem : some item ∈ items) : Parsed item := by
  induction items with
  | nil => cases hitem
  | cons first rest ih =>
    cases first with
    | none =>
      rcases List.mem_cons.mp hitem with heq | hitem
      · cases heq
      · exact ih h hitem
    | some first =>
      rcases List.mem_cons.mp hitem with heq | hitem
      · cases heq
        exact h.1
      · exact ih h.2 hitem

theorem MembersParsed.member {members : List (Text × Option Value)} (h : MembersParsed members) {key : Text}
    {item : Value} (hm : (key, some item) ∈ members) : Parsed item := by
  induction members with
  | nil => cases hm
  | cons first rest ih =>
    obtain ⟨name, _ | first⟩ := first
    · rcases List.mem_cons.mp hm with heq | hm
      · cases heq
      · exact ih h hm
    · rcases List.mem_cons.mp hm with heq | hm
      · cases heq
        exact h.1
      · exact ih h.2 hm

theorem eq_of_key {members : List (Text × Option Value)} (h : (members.map Prod.fst).Nodup)
    {a b : Text × Option Value}
    (ha : a ∈ members) (hb : b ∈ members) (hkey : a.1 = b.1) : a = b :=
  List.inj_on_of_nodup_map h ha hb hkey

theorem entry_at {item : Value} {key : Key} (howner : Parsed owner) (h : (key, some item) ∈ entries owner) :
    Parsed item ∧ At (· = item) [key] owner := by
  cases owner with
  | arr items =>
    obtain ⟨⟨held, i⟩, hmem, heq⟩ := List.mem_map.mp h
    cases heq
    have hi : items[i]? = some (some item) := List.mem_zipIdx_iff_getElem?.mp hmem
    refine ⟨howner.item (List.mem_of_getElem? hi), fun other hother => ?_⟩
    rw [hi] at hother
    cases hother
    exact rfl
  | obj members =>
    obtain ⟨m, hm, heq⟩ := List.mem_map.mp h
    obtain ⟨name, held⟩ := m
    cases heq
    refine ⟨howner.2.member hm, fun other hother hname value hvalue => ?_⟩
    obtain rfl := eq_of_key howner.1 hother hm hname
    cases hvalue
    exact rfl
  | null | bool b | num n | str s => cases h

/-! ## 5. What the slots hold -/

/-- Everything pending and every slot is part of the value. -/
structure Walk.Sound (root : Value) (w : Walk) : Prop where
  pending : ∀ p ∈ w.pending, Parsed p.2 ∧ At (· = p.2) p.1 root
  slots : ∀ slot ∈ w.slots, At (· = .str slot.value) slot.path root

theorem at_entry {item : Value} {key : Key} (howner : Parsed owner)
    (hat : At (· = owner) path root) (he : (key, some item) ∈ entries owner) :
    Parsed item ∧ At (· = item) (path ++ [key]) root := by
  obtain ⟨hparsed, hkey⟩ := entry_at howner he
  refine ⟨hparsed, At.append (hat.mono fun value hvalue => ?_)⟩
  rw [hvalue]
  exact hkey

theorem Walk.Sound.visit {w : Walk} (h : Walk.Sound root w)
    (howner : Parsed owner) (hat : At (· = owner) path root) {e : Key × Option Value}
      (he : e ∈ entries owner) :
    Walk.Sound root (w.visit path e) := by
  obtain ⟨key, item⟩ := e
  have hpush : ∀ v, (key, some v) ∈ entries owner →
      Walk.Sound root { w with pending := (path ++ [key], v) :: w.pending } := fun v hv =>
    ⟨List.forall_mem_cons.mpr ⟨at_entry howner hat hv, h.pending⟩, h.slots⟩
  rcases item with _ | ⟨⟨⟩ | b | n | s | items | members⟩
  · exact h
  · exact h
  · exact h
  · exact h
  · unfold Walk.visit
    dsimp only
    split
    · refine ⟨h.pending, List.forall_mem_append.mpr ⟨h.slots, List.forall_mem_singleton.mpr ?_⟩⟩
      exact (at_entry howner hat he).2
    · exact h
  · exact hpush _ he
  · exact hpush _ he

theorem Walk.Sound.visits {w : Walk} (h : Walk.Sound root w)
    (howner : Parsed owner) (hat : At (· = owner) path root) {es : List (Key × Option Value)}
    (hes : ∀ e ∈ es, e ∈ entries owner) : Walk.Sound root (es.foldl (Walk.visit path) w) := by
  induction es generalizing w with
  | nil => exact h
  | cons e es ih =>
    rw [List.foldl_cons]
    exact ih (h.visit howner hat (hes e List.mem_cons_self)) fun e he => hes e (List.mem_cons_of_mem _ he)

theorem Walk.Sound.run {w : Walk} (h : Walk.Sound root w) : Walk.Sound root w.run := by
  induction w using Walk.run.induct with
  | case1 w hpending =>
    unfold Walk.run
    split
    · exact h
    · rename_i hcons
      rw [hpending] at hcons
      cases hcons
  | case2 w path owner rest hpending ih =>
    unfold Walk.run
    split
    · exact h
    · rename_i hcons
      rw [hpending] at hcons
      cases hcons
      have hall := h.pending
      rw [hpending] at hall
      obtain ⟨⟨howner, hat⟩, hrest⟩ := List.forall_mem_cons.mp hall
      have hpopped : Walk.Sound root { w with pending := rest } := ⟨hrest, h.slots⟩
      exact ih (hpopped.visits howner hat fun _ he => he)

/-- **Every slot holds a string of the value.** -/
theorem slotsOf_sound (h : Parsed value) :
    ∀ slot ∈ (slotsOf value).slots, At (· = .str slot.value) slot.path value :=
  (Walk.Sound.run ⟨List.forall_mem_singleton.mpr ⟨h, rfl⟩, List.forall_mem_nil _⟩).slots

/-- The units of the strings of 64 Ki units or more. -/
def longStrings : Value → Nat := tally (fun s => if mediaChars ≤ s.length then s.length else 0) 0

/-- Those of the strings that an array or an object holds. -/
def heldStrings : Value → Nat
  | .str _ => 0
  | value => longStrings value

namespace Walk

def added : Option Value → Nat
  | some (.str s) => if mediaChars ≤ s.length then s.length else 0
  | _ => 0

theorem total_visit (path : Path) (w : Walk) (e : Key × Option Value) :
    (w.visit path e).total = w.total + added e.2 := by
  obtain ⟨key, item⟩ := e
  rcases item with _ | ⟨⟨⟩ | b | n | s | items | members⟩
  · rfl
  · rfl
  · rfl
  · rfl
  · show (if mediaChars ≤ s.length then _ else w : Walk).total = w.total + if _ then _ else _
    split <;> rfl
  · rfl
  · rfl

theorem added_pushed (item : Option Value) :
    added item + pushed heldStrings item = held longStrings item := by
  rcases item with _ | ⟨⟨⟩ | b | n | s | items | members⟩
  · rfl
  · rfl
  · rfl
  · rfl
  · rfl
  · exact Nat.zero_add _
  · exact Nat.zero_add _

theorem visits_sum (path : Path) (es : List (Key × Option Value)) (w : Walk) :
    (es.foldl (visit path) w).total + due heldStrings (es.foldl (visit path) w) =
      w.total + due heldStrings w + (es.map fun e => held longStrings e.2).sum := by
  induction es generalizing w with
  | nil => rfl
  | cons e es ih =>
    have hboth := added_pushed e.2
    rw [List.foldl_cons, ih, total_visit, due_visit, List.map_cons, List.sum_cons]
    omega

theorem heldStrings_entries (owner : Value) :
    ((entries owner).map fun e => held longStrings e.2).sum = heldStrings owner := by
  have hsum := sum_entries longStrings owner
  cases owner with
  | arr items =>
    have hall : heldStrings (.arr items) = 0 + (items.map (held longStrings)).sum :=
      congrArg (0 + ·) (tallyItems_eq _ _ items)
    rw [hsum, hall, Nat.zero_add]
  | obj members =>
    have hall : heldStrings (.obj members) = 0 + (members.map fun m => held longStrings m.2).sum :=
      congrArg (0 + ·) (tallyMembers_eq _ _ members)
    rw [hsum, hall, Nat.zero_add]
  | null | bool b | num n => rfl
  | str s => rfl

theorem run_total (w : Walk) : w.run.total = w.total + due heldStrings w := by
  induction w using run.induct with
  | case1 w hpending =>
    have hdue : due heldStrings w = 0 := by
      unfold due
      rw [hpending]
      rfl
    unfold run
    split
    · rw [hdue, Nat.add_zero]
    · rename_i hcons
      rw [hpending] at hcons
      cases hcons
  | case2 w path owner rest hpending ih =>
    have hdue : due heldStrings w = heldStrings owner + due heldStrings { w with pending := rest } := by
      unfold due
      rw [hpending]
      rfl
    unfold run
    split
    · rename_i hnil
      rw [hpending] at hnil
      cases hnil
    · rename_i hcons
      rw [hpending] at hcons
      cases hcons
      rw [ih, visits_sum, heldStrings_entries, hdue]
      dsimp only
      omega

end Walk

/-- **The total counts every string of 64 Ki units that is held.** -/
theorem slotsOf_total (value : Value) : (slotsOf value).total = heldStrings value := by
  unfold slotsOf
  rw [Walk.run_total]
  show 0 + (heldStrings value + 0) = _
  omega

/-! ## 6. Assignments -/

theorem assign_again (s t : Text) (path : Path) (value : Value) :
    assign s path (assign t path value) = assign s path value := by
  induction path generalizing value with
  | nil => rfl
  | cons key path ih =>
    have hitem : ∀ item : Option Value, (item.map (assign t path)).map (assign s path) = item.map
      (assign s path) := by
      intro item
      cases item with
      | none => rfl
      | some item => exact congrArg some (ih item)
    cases key with
    | index i =>
      cases value with
      | arr items =>
        show Value.arr ((items.modify i _).modify i _) = Value.arr (items.modify i _)
        rw [List.modify_modify_eq]
        congr 2
        exact funext hitem
      | _ => rfl
    | name key =>
      cases value with
      | obj members =>
        show Value.obj ((members.map _).map _) = Value.obj (members.map _)
        rw [List.map_map]
        congr 1
        refine List.map_congr_left fun m _ => ?_
        dsimp only [Function.comp_apply]
        by_cases hm : m.1 = key
        · simp only [if_pos hm, hitem]
        · simp only [if_neg hm]
      | _ => rfl

theorem assign_comm {s t : Text} {other : Path} (h : path ≠ other) (value : Value) :
    assign s path (assign t other value) = assign t other (assign s path value) := by
  induction path generalizing other value with
  | nil =>
    cases other with
    | nil => exact absurd rfl h
    | cons key other => cases key <;> rfl
  | cons key path ih =>
    cases other with
    | nil => cases key <;> rfl
    | cons key' other =>
      have hitem : path ≠ other → ∀ item : Option Value,
          (item.map (assign t other)).map (assign s path) = (item.map (assign s path)).map
            (assign t other) := by
        intro hne item
        cases item with
        | none => rfl
        | some item => exact congrArg some (ih hne item)
      cases value with
      | arr items =>
        cases key <;> cases key'
        case index.index i j =>
          show Value.arr ((items.modify j _).modify i _) = Value.arr ((items.modify i _).modify j _)
          by_cases hij : i = j
          · subst hij
            have hne : path ≠ other := fun heq => h (by rw [heq])
            rw [List.modify_modify_eq, List.modify_modify_eq]
            congr 2
            exact funext (hitem hne)
          · rw [List.modify_modify_ne _ _ _ hij]
        all_goals rfl
      | obj members =>
        cases key <;> cases key'
        case name.name key key' =>
          show Value.obj ((members.map _).map _) = Value.obj ((members.map _).map _)
          rw [List.map_map, List.map_map]
          congr 1
          refine List.map_congr_left fun m _ => ?_
          dsimp only [Function.comp_apply]
          by_cases hm : m.1 = key <;> by_cases hm' : m.1 = key'
          · have hne : path ≠ other := fun heq => h (by rw [heq, ← hm, ← hm'])
            simp only [if_pos hm, if_pos hm', hitem hne]
          · simp only [if_pos hm, if_neg hm']
          · simp only [if_neg hm, if_pos hm']
          · simp only [if_neg hm, if_neg hm']
        all_goals rfl
      | _ => cases key <;> cases key' <;> rfl

theorem assign_own {s : Text} (h : At (· = .str s) path value) : assign s path value = value := by
  induction path generalizing value with
  | nil => exact h.symm
  | cons key path ih =>
    have hitem : ∀ item : Option Value, (∀ v, item = some v → At (· = .str s) path v) →
        item.map (assign s path) = item := by
      intro item hitem
      cases item with
      | none => rfl
      | some v => exact congrArg some (ih (hitem v rfl))
    cases key with
    | index i =>
      cases value with
      | arr items =>
        show Value.arr (items.modify i _) = _
        congr 1
        refine List.ext_getElem? fun n => ?_
        rw [List.getElem?_modify]
        by_cases hn : i = n
        · subst hn
          cases hheld : items[i]? with
          | none => rfl
          | some held =>
            simp only [if_true]
            exact congrArg some (hitem held fun v hv => h v (by rw [hheld, hv]))
        · simp only [if_neg hn]
          exact id_map _
      | _ => rfl
    | name key =>
      cases value with
      | obj members =>
        show Value.obj (members.map _) = _
        congr 1
        refine (List.map_congr_left fun m hm => ?_).trans (List.map_id members)
        by_cases hkey : m.1 = key
        · rw [if_pos hkey, hitem m.2 (h m hm hkey)]
          rfl
        · rw [if_neg hkey]
          rfl
      | _ => rfl

theorem restore_assign {slots : List Slot} {slot : Slot} (h : slot ∈ slots) (s : Text) (value : Value) :
    restore slots (assign s slot.path value) = restore slots value := by
  induction slots generalizing value with
  | nil => cases h
  | cons first rest ih =>
    show restore rest (assign first.value first.path (assign s slot.path value)) =
      restore rest (assign first.value first.path value)
    by_cases hpath : first.path = slot.path
    · rw [← hpath, assign_again]
    · rcases List.mem_cons.mp h with heq | hrest
      · exact absurd (congrArg Slot.path heq).symm hpath
      · rw [assign_comm hpath, ih hrest]

theorem restore_own {slots : List Slot} (h : ∀ slot ∈ slots, At (· = .str slot.value) slot.path value) :
    restore slots value = value := by
  induction slots with
  | nil => rfl
  | cons first rest ih =>
    obtain ⟨hfirst, hrest⟩ := List.forall_mem_cons.mp h
    show restore rest (assign first.value first.path value) = value
    rw [assign_own hfirst, ih hrest]

/-- **The value is what it was.** -/
theorem restore_swap (marker : Text) {slots : List Slot}
    (h : ∀ slot ∈ slots, At (· = .str slot.value) slot.path value) :
    restore slots (swap marker slots value) = value := by
  have hany : ∀ (marks : List (Slot × Nat)) (v : Value), (∀ mark ∈ marks, mark.1 ∈ slots) →
      restore slots (marks.foldl (fun value slot => assign (marker ++ digits slot.2) slot.1.path value) v) =
        restore slots v := by
    intro marks
    induction marks with
    | nil => exact fun _ _ => rfl
    | cons mark marks ih =>
      intro v hmarks
      obtain ⟨hmark, hrest⟩ := List.forall_mem_cons.mp hmarks
      rw [List.foldl_cons, ih _ hrest, restore_assign hmark]
  unfold swap
  rw [hany _ _ fun mark hmark => List.fst_mem_of_mem_zipIdx hmark, restore_own h]

/-! ## 7. The skeleton -/

mutual

/-- The second value is the first with markers for some strings, each with the index of a slot of
    that string. -/
inductive Swapped (marker : Text) (slots : List Slot) : Value → Value → Prop
  | null : Swapped marker slots .null .null
  | bool (b : Bool) : Swapped marker slots (.bool b) (.bool b)
  | num (n : Number) : Swapped marker slots (.num n) (.num n)
  | str (s : Text) : Swapped marker slots (.str s) (.str s)
  | mark {i : Nat} {slot : Slot} (h : slots[i]? = some slot) :
      Swapped marker slots (.str slot.value) (.str (marker ++ digits i))
  | arr {items others : List (Option Value)} (h : SwappedItems marker slots items others) :
      Swapped marker slots (.arr items) (.arr others)
  | obj {members others : List (Text × Option Value)} (h : SwappedMembers marker slots members others) :
      Swapped marker slots (.obj members) (.obj others)

inductive SwappedItems (marker : Text) (slots : List Slot) : List (Option Value) → List (Option Value) → Prop
  | nil : SwappedItems marker slots [] []
  | hole {items others : List (Option Value)} (h : SwappedItems marker slots items others) :
      SwappedItems marker slots (none :: items) (none :: others)
  | cons {item other : Value} {items others : List (Option Value)} (hitem : Swapped marker slots item other)
      (h : SwappedItems marker slots items others) : SwappedItems marker slots (some item :: items)
        (some other :: others)

inductive SwappedMembers (marker : Text) (slots : List Slot) :
    List (Text × Option Value) → List (Text × Option Value) → Prop
  | nil : SwappedMembers marker slots [] []
  | hole (key : Text) {members others : List (Text × Option Value)}
    (h : SwappedMembers marker slots members others) :
      SwappedMembers marker slots ((key, none) :: members) ((key, none) :: others)
  | cons (key : Text) {item other : Value} {members others : List (Text × Option Value)}
      (hitem : Swapped marker slots item other) (h : SwappedMembers marker slots members others) :
      SwappedMembers marker slots ((key, some item) :: members) ((key, some other) :: others)

end

section Skeleton

variable {m : Text} {slots : List Slot}

mutual

theorem Swapped.refl : ∀ value : Value, Swapped m slots value value
  | .null => .null
  | .bool b => .bool b
  | .num n => .num n
  | .str s => .str s
  | .arr items => .arr (SwappedItems.refl items)
  | .obj members => .obj (SwappedMembers.refl members)

theorem SwappedItems.refl : ∀ items : List (Option Value), SwappedItems m slots items items
  | [] => .nil
  | none :: rest => .hole (SwappedItems.refl rest)
  | some item :: rest => .cons (Swapped.refl item) (SwappedItems.refl rest)

theorem SwappedMembers.refl : ∀ members : List (Text × Option Value), SwappedMembers m slots members members
  | [] => .nil
  | (key, none) :: rest => .hole key (SwappedMembers.refl rest)
  | (key, some item) :: rest => .cons key (Swapped.refl item) (SwappedMembers.refl rest)

end

theorem SwappedItems.modify {items others : List (Option Value)}
    (h : SwappedItems m slots items others) {i : Nat}
    {f : Value → Value} (hf : ∀ item other, items[i]? = some (some item) → Swapped m slots item other →
      Swapped m slots item (f other)) : SwappedItems m slots items (others.modify i (Option.map f)) := by
  induction items generalizing others i with
  | nil =>
    cases h
    rw [List.modify_nil]
    exact .nil
  | cons item items ih =>
    cases i with
    | zero =>
      cases h with
      | hole h =>
        rw [List.modify_zero_cons]
        exact .hole h
      | cons hitem h =>
        rw [List.modify_zero_cons]
        exact .cons (hf _ _ rfl hitem) h
    | succ i =>
      cases h with
      | hole h =>
        rw [List.modify_succ_cons]
        exact .hole (ih h fun item other hitem => hf item other hitem)
      | cons hitem h =>
        rw [List.modify_succ_cons]
        exact .cons hitem (ih h fun item other hitem => hf item other hitem)

theorem SwappedMembers.map {members others : List (Text × Option Value)}
    (h : SwappedMembers m slots members others)
    {key : Text} {f : Value → Value} (hf : ∀ item other, (key, some item) ∈ members →
      Swapped m slots item other →
      Swapped m slots item (f other)) :
    SwappedMembers m slots members (others.map fun e => if e.1 = key then (e.1, e.2.map f) else e) := by
  induction members generalizing others with
  | nil =>
    cases h
    exact .nil
  | cons e members ih =>
    cases h with
    | hole name h =>
      have hrest := ih h fun item other hitem => hf item other (List.mem_cons_of_mem _ hitem)
      rw [List.map_cons]
      by_cases hname : name = key
      · rw [if_pos hname]
        exact .hole name hrest
      · rw [if_neg hname]
        exact .hole name hrest
    | cons name hitem h =>
      have hrest := ih h fun item other hitem => hf item other (List.mem_cons_of_mem _ hitem)
      rw [List.map_cons]
      by_cases hname : name = key
      · rw [if_pos hname]
        subst hname
        exact .cons name (hf _ _ List.mem_cons_self hitem) hrest
      · rw [if_neg hname]
        exact .cons name hitem hrest

theorem Swapped.assign {i : Nat} {slot : Slot} (hslot : slots[i]? = some slot) {other : Value}
    (hat : At (· = .str slot.value) path value) (h : Swapped m slots value other) :
    Swapped m slots value (assign (m ++ digits i) path other) := by
  induction path generalizing value other with
  | nil =>
    obtain rfl := hat
    exact .mark hslot
  | cons key path ih =>
    cases key with
    | index j =>
      cases h with
      | arr h => exact .arr (h.modify fun item other hitem hswapped => ih (hat item hitem) hswapped)
      | null => exact .null
      | bool b => exact .bool b
      | num n => exact .num n
      | str s => exact .str s
      | mark h => exact .mark h
      | obj h => exact .obj h
    | name key =>
      cases h with
      | obj h => exact .obj (h.map fun item other hitem hswapped => ih (hat _ hitem rfl item rfl) hswapped)
      | null => exact .null
      | bool b => exact .bool b
      | num n => exact .num n
      | str s => exact .str s
      | mark h => exact .mark h
      | arr h => exact .arr h

/-- **The skeleton is the value with markers for media.** -/
theorem swap_swapped (m : Text) (h : ∀ slot ∈ slots, At (· = .str slot.value) slot.path value) :
    Swapped m slots value (swap m slots value) := by
  have hany : ∀ (marks : List (Slot × Nat)) (other : Value), (∀ mark ∈ marks, slots[mark.2]? = some mark.1) →
      Swapped m slots value other →
      Swapped m slots value (marks.foldl (fun value slot => Body.assign (m ++ digits slot.2)
        slot.1.path value) other) := by
    intro marks
    induction marks with
    | nil => exact fun _ _ hother => hother
    | cons mark marks ih =>
      intro other hmarks hother
      obtain ⟨hmark, hrest⟩ := List.forall_mem_cons.mp hmarks
      exact ih _ hrest (hother.assign hmark (h mark.1 (List.mem_of_getElem? hmark)))
  exact hany _ _ (fun mark hmark => List.mem_zipIdx_iff_getElem?.mp hmark) (.refl value)

end Skeleton

end ClawRouter.Body
