/-
  Subject:   A JSON body written in chunks and measured without being written
             (src/worker/json-body.ts, `quoted` to `jsonBodyBytes`).

  * **`jsonChunks_flatten`**: the chunks are the text of `JSON.stringify`;
  * **`jsonBodyBytes_eq`**: the size is the number of its bytes.
-/
import ClawRouter.Lib.PlainJson

namespace ClawRouter.Body

open Utf16 PlainJson

/-! ## 1. The traversals -/

def stringChunk : Nat := 4096

theorem two_le_stringChunk : 2 ≤ stringChunk := by decide

/-- `value.slice(offset, end)` for each turn of the loops of `quoted` and `quotedBytes`. -/
def slices (value : Text) : List Text := pieces stringChunk two_le_stringChunk value

def inner (text : Text) : Text := text.tail.dropLast

def quoted (value : Text) : List Text :=
  [0x22] :: ((slices value).map fun slice => inner (quote slice)) ++ [[0x22]]

mutual

def jsonChunks : Value → List Text
  | .str s => quoted s
  | .arr items => [0x5b] :: itemChunks 0 items ++ [[0x5d]]
  | .obj members => [0x7b] :: memberChunks true members ++ [[0x7d]]
  | .null => [nullText]
  | .bool true => [trueText]
  | .bool false => [falseText]
  | .num n => [n.text]

def itemChunks (index : Nat) : List (Option Value) → List Text
  | [] => []
  | none :: rest => (if index ≠ 0 then [[comma]] else []) ++ [nullText] ++ itemChunks (index + 1) rest
  | some item :: rest =>
    (if index ≠ 0 then [[comma]] else []) ++ jsonChunks item ++ itemChunks (index + 1) rest

def memberChunks (first : Bool) : List (Text × Option Value) → List Text
  | [] => []
  | (_, none) :: rest => memberChunks first rest
  | (key, some item) :: rest =>
    (if !first then [[comma]] else []) ++ quoted key ++ [[colon]] ++ jsonChunks item ++
      memberChunks false rest

end

def scratchBytes : Nat := 3 * (6 * stringChunk + 2)

/-- `encoder.encodeInto(JSON.stringify(text), scratch).written`. -/
def scratchWritten (text : Text) : Nat := (encodeInto (quote text) scratchBytes).length

def quotedBytes (value : Text) : Nat :=
  if value.length ≤ stringChunk then scratchWritten value
  else (slices value).foldl (fun bytes slice => bytes + (scratchWritten slice - 2)) 2

mutual

def jsonBodyBytes : Value → Nat
  | .str s => quotedBytes s
  | .arr items => itemBytes (1 + (items.length - 1) + 1) items
  | .obj members =>
    let (bytes, members) := memberBytes 2 0 members
    bytes + (members - 1)
  | .null => nullText.length
  | .bool true => trueText.length
  | .bool false => falseText.length
  | .num n => n.text.length

def itemBytes (bytes : Nat) : List (Option Value) → Nat
  | [] => bytes
  | none :: rest => itemBytes (bytes + nullText.length) rest
  | some item :: rest => itemBytes (bytes + jsonBodyBytes item) rest

def memberBytes (bytes members : Nat) : List (Text × Option Value) → Nat × Nat
  | [] => (bytes, members)
  | (_, none) :: rest => memberBytes bytes members rest
  | (key, some item) :: rest =>
    memberBytes (bytes + (quotedBytes key + 1 + jsonBodyBytes item)) (members + 1) rest

end

/-! ## 2. Strings -/

theorem inner_quote (s : Text) : inner (quote s) = quoteBody s := by
  unfold inner quote
  rw [List.tail_cons, List.dropLast_concat]

theorem quoted_flatten (value : Text) : (quoted value).flatten = quote value := by
  have hbody : ((slices value).map fun slice => inner (quote slice)).flatten = quoteBody value := by
    rw [← List.flatMap_def]
    simp only [inner_quote]
    exact flatMap_points_pieces quotePoint stringChunk two_le_stringChunk value
  unfold quoted
  rw [List.cons_append, List.flatten_cons, List.flatten_append, hbody]
  rfl

theorem scratchWritten_eq {text : Text} (h : text.length ≤ stringChunk) :
    scratchWritten text = (encode (quoteBody text)).length + 2 := by
  have hbody := quoteBody_length_le text
  have hquote : (encode (quote text)).length = (encode (quoteBody text)).length + 2 := by
    rw [encode_quote]
    simp
  have hfits : (encode (quote text)).length ≤ scratchBytes := by
    unfold scratchBytes stringChunk at *
    omega
  unfold scratchWritten
  rw [encodeInto_eq hfits, hquote]

theorem foldl_slices {texts : List Text} (h : ∀ t ∈ texts, t.length ≤ stringChunk) (bytes : Nat) :
    texts.foldl (fun bytes slice => bytes + (scratchWritten slice - 2)) bytes =
      bytes + (encode (texts.flatMap quoteBody)).length := by
  induction texts generalizing bytes with
  | nil => rfl
  | cons t rest ih =>
    have ht := h t List.mem_cons_self
    have hrest := ih (fun t' ht' => h t' (List.mem_cons_of_mem t ht')) (bytes + (scratchWritten t - 2))
    rw [List.foldl_cons, hrest, List.flatMap_cons, encode_append ((quoteBody_whole t).cut _),
      scratchWritten_eq ht, List.length_append]
    omega

theorem quotedBytes_eq (value : Text) : quotedBytes value = (encode (quote value)).length := by
  have hquote : (encode (quote value)).length = (encode (quoteBody value)).length + 2 := by
    rw [encode_quote]
    simp
  unfold quotedBytes
  split
  · rename_i h
    rw [scratchWritten_eq h, hquote]
  · have hshort : ∀ t ∈ slices value, t.length ≤ stringChunk := fun t ht => length_le_of_mem_pieces ht
    have hbody : (slices value).flatMap quoteBody = quoteBody value :=
      flatMap_points_pieces quotePoint stringChunk two_le_stringChunk value
    rw [foldl_slices hshort, hbody, hquote, Nat.add_comm]

/-! ## 3. Values -/

theorem joined_cons (t : Text) (rest : List Text) : joined (t :: rest) = t ++ rest.flatMap fun u =>
    comma :: u := rfl

mutual

/-- **The chunks are the text.** -/
theorem jsonChunks_flatten : ∀ value : Value, (jsonChunks value).flatten = stringify value
  | .str s => quoted_flatten s
  | .null | .bool true | .bool false | .num n => List.append_nil _
  | .arr items => by
    have hitems : (itemChunks 0 items).flatten = joined (itemTexts items) := firstItem_flatten items
    rw [jsonChunks, stringify, List.cons_append, List.flatten_cons, List.flatten_append, hitems]
    rfl
  | .obj members => by
    have hmembers : (memberChunks true members).flatten = joined (memberTexts members) :=
      firstMember_flatten members
    rw [jsonChunks, stringify, List.cons_append, List.flatten_cons, List.flatten_append, hmembers]
    rfl

theorem firstItem_flatten :
    ∀ items : List (Option Value), (itemChunks 0 items).flatten = joined (itemTexts items)
  | [] => rfl
  | none :: rest => by
    have hrest := laterItems_flatten 0 rest
    rw [itemChunks, itemTexts, joined_cons, ← hrest, List.flatten_append]
    rfl
  | some item :: rest => by
    have hitem := jsonChunks_flatten item
    have hrest := laterItems_flatten 0 rest
    rw [itemChunks, itemTexts, joined_cons, ← hrest, ← hitem, List.flatten_append]
    rfl

theorem laterItems_flatten (index : Nat) : ∀ items : List (Option Value),
    (itemChunks (index + 1) items).flatten = (itemTexts items).flatMap fun u => comma :: u
  | [] => rfl
  | none :: rest => by
    have hrest := laterItems_flatten (index + 1) rest
    rw [itemChunks, itemTexts, List.flatMap_cons, ← hrest, if_pos (Nat.succ_ne_zero index)]
    simp
  | some item :: rest => by
    have hitem := jsonChunks_flatten item
    have hrest := laterItems_flatten (index + 1) rest
    rw [itemChunks, itemTexts, List.flatMap_cons, ← hrest, ← hitem, if_pos (Nat.succ_ne_zero index)]
    simp

theorem firstMember_flatten : ∀ members : List (Text × Option Value),
    (memberChunks true members).flatten = joined (memberTexts members)
  | [] => rfl
  | (_, none) :: rest => by
    rw [memberChunks, memberTexts]
    exact firstMember_flatten rest
  | (key, some item) :: rest => by
    have hitem := jsonChunks_flatten item
    have hrest := laterMembers_flatten rest
    rw [memberChunks, memberTexts, joined_cons, ← hrest, ← hitem, ← quoted_flatten key]
    simp

theorem laterMembers_flatten : ∀ members : List (Text × Option Value),
    (memberChunks false members).flatten = (memberTexts members).flatMap fun u => comma :: u
  | [] => rfl
  | (_, none) :: rest => by
    rw [memberChunks, memberTexts]
    exact laterMembers_flatten rest
  | (key, some item) :: rest => by
    have hitem := jsonChunks_flatten item
    have hrest := laterMembers_flatten rest
    rw [memberChunks, memberTexts, List.flatMap_cons, ← hrest, ← hitem, ← quoted_flatten key]
    simp

end

/-! ## 4. The size -/

theorem itemTexts_whole : ∀ {items : List (Option Value)}, ∀ t ∈ itemTexts items, Whole t
  | [], _, h => by cases h
  | none :: rest, t, h => by
    rcases List.mem_cons.mp h with rfl | h
    · exact nullText_ascii.whole
    · exact itemTexts_whole t h
  | some item :: rest, t, h => by
    rcases List.mem_cons.mp h with rfl | h
    · exact stringify_whole item
    · exact itemTexts_whole t h

theorem itemTexts_length : ∀ items : List (Option Value), (itemTexts items).length = items.length
  | [] => rfl
  | none :: rest | some _ :: rest => congrArg (· + 1) (itemTexts_length rest)

theorem memberTexts_whole : ∀ {members : List (Text × Option Value)}, ∀ t ∈ memberTexts members, Whole t
  | [], _, h => by cases h
  | (_, none) :: rest, t, h => @memberTexts_whole rest t h
  | (key, some item) :: rest, t, h => by
    rcases List.mem_cons.mp h with rfl | h
    · have hitem : Whole ([colon] ++ stringify item) :=
        (ascii_singleton (by decide)).whole.append (stringify_whole item)
      exact (quote_whole key).append hitem
    · exact memberTexts_whole t h

def totalBytes (texts : List Text) : Nat := (texts.map fun t => (encode t).length).sum

theorem totalBytes_cons (t : Text) (rest : List Text) :
    totalBytes (t :: rest) = (encode t).length + totalBytes rest := rfl

theorem encode_cons_ascii {u : UInt16} (h : u.toNat < 128) (t : Text) :
    (encode (u :: t)).length = 1 + (encode t).length := by
  have hcut : encode ([u] ++ t) = encode [u] ++ encode t := encode_append ((ascii_singleton h).whole.cut t)
  rw [← List.singleton_append, hcut, List.length_append, (ascii_singleton h).encode_length]
  rfl

theorem encode_later {texts : List Text} (h : ∀ t ∈ texts, Whole t) :
    (encode (texts.flatMap fun u => comma :: u)).length = texts.length + totalBytes texts := by
  induction texts with
  | nil => rfl
  | cons t rest ih =>
    have hrest := ih fun t' ht' => h t' (List.mem_cons_of_mem t ht')
    have ht : Whole (comma :: t) := (ascii_singleton (u := comma) (by decide)).whole.append
      (h t List.mem_cons_self)
    rw [List.flatMap_cons, encode_append (ht.cut _), List.length_append, encode_cons_ascii (by decide), hrest,
      totalBytes_cons, List.length_cons]
    omega

theorem encode_joined {texts : List Text} (h : ∀ t ∈ texts, Whole t) :
    (encode (joined texts)).length = (texts.length - 1) + totalBytes texts := by
  cases texts with
  | nil => rfl
  | cons t rest =>
    have hrest := encode_later fun t' ht' => h t' (List.mem_cons_of_mem t ht')
    rw [joined_cons, encode_append ((h t List.mem_cons_self).cut _), List.length_append, hrest,
      totalBytes_cons,
      List.length_cons]
    omega

theorem encode_bracketed {open_ close : UInt16} (ho : open_.toNat < 128) (hc : close.toNat < 128) {t : Text}
    (h : Whole t) : (encode (open_ :: (t ++ [close]))).length = 2 + (encode t).length := by
  rw [encode_cons_ascii ho, encode_append (h.cut _), List.length_append, (ascii_singleton hc).encode_length,
    List.length_singleton]
  omega

theorem joined_whole {texts : List Text} (h : ∀ t ∈ texts, Whole t) : Whole (joined texts) := by
  cases texts with
  | nil => exact Whole.nil
  | cons t rest =>
    rw [joined_cons, List.flatMap_def]
    refine (h t List.mem_cons_self).append (Whole.flatten fun u hu => ?_)
    obtain ⟨t', ht', rfl⟩ := List.mem_map.mp hu
    exact (ascii_singleton (u := comma) (by decide)).whole.append (h t' (List.mem_cons_of_mem t ht'))

mutual

/-- **The size is the number of bytes.** -/
theorem jsonBodyBytes_eq : ∀ value : Value, jsonBodyBytes value = (encode (stringify value)).length
  | .str s => quotedBytes_eq s
  | .null => nullText_ascii.encode_length.symm
  | .bool true => trueText_ascii.encode_length.symm
  | .bool false => falseText_ascii.encode_length.symm
  | .num n => n.ascii.encode_length.symm
  | .arr items => by
    have hitems := itemBytes_eq items (1 + (items.length - 1) + 1)
    rw [jsonBodyBytes, hitems, stringify, encode_bracketed (by decide) (by decide)
      (joined_whole itemTexts_whole),
      encode_joined itemTexts_whole, itemTexts_length]
    omega
  | .obj members => by
    have hmembers := memberBytes_eq members 2 0
    rw [jsonBodyBytes, hmembers, stringify,
      encode_bracketed (by decide) (by decide) (joined_whole memberTexts_whole),
        encode_joined memberTexts_whole]
    simp only
    omega

theorem itemBytes_eq : ∀ (items : List (Option Value)) (bytes : Nat),
    itemBytes bytes items = bytes + totalBytes (itemTexts items)
  | [], _ => rfl
  | none :: rest, bytes => by
    have hrest := itemBytes_eq rest (bytes + nullText.length)
    rw [itemBytes, hrest, itemTexts, totalBytes_cons, nullText_ascii.encode_length]
    omega
  | some item :: rest, bytes => by
    have hitem := jsonBodyBytes_eq item
    have hrest := itemBytes_eq rest (bytes + jsonBodyBytes item)
    rw [itemBytes, hrest, itemTexts, totalBytes_cons, ← hitem]
    omega

theorem memberBytes_eq : ∀ (members : List (Text × Option Value)) (bytes count : Nat),
    memberBytes bytes count members = (bytes + totalBytes (memberTexts members),
      count + (memberTexts members).length)
  | [], _, _ => rfl
  | (_, none) :: rest, bytes, count => by
    rw [memberBytes, memberTexts]
    exact memberBytes_eq rest bytes count
  | (key, some item) :: rest, bytes, count => by
    have hitem := jsonBodyBytes_eq item
    have hrest := memberBytes_eq rest (bytes + (quotedBytes key + 1 + jsonBodyBytes item)) (count + 1)
    have htext : (encode (quote key ++ colon :: stringify item)).length = quotedBytes key + 1 +
      jsonBodyBytes item := by
      rw [encode_append ((quote_whole key).cut _), List.length_append, encode_cons_ascii (by decide), hitem,
        quotedBytes_eq]
      omega
    rw [memberBytes, hrest, memberTexts, totalBytes_cons, htext, List.length_cons]
    simp only [Prod.mk.injEq]
    omega

end

/-! ## 5. The size of a chunk -/

/-- A chunk ends between two code points and takes 24 KiB at most. -/
def Fits (chunk : Text) : Prop := Whole chunk ∧ (encode chunk).length ≤ 6 * stringChunk

theorem fits_of_ascii {chunk : Text} (h : Ascii chunk) (hlen : chunk.length ≤ 25) : Fits chunk := by
  refine ⟨h.whole, ?_⟩
  rw [h.encode_length]
  unfold stringChunk
  omega

theorem quoted_fits {value : Text} : ∀ chunk ∈ quoted value, Fits chunk := by
  intro chunk hchunk
  unfold quoted at hchunk
  simp only [List.cons_append, List.mem_cons, List.mem_append, List.mem_map, List.not_mem_nil,
    or_false] at hchunk
  obtain rfl | ⟨slice, hslice, rfl⟩ | rfl := hchunk
  · exact fits_of_ascii quoteMark_ascii (by decide)
  · have hlen : slice.length ≤ stringChunk := length_le_of_mem_pieces hslice
    have hbody := quoteBody_length_le slice
    rw [inner_quote]
    exact ⟨quoteBody_whole slice, by omega⟩
  · exact fits_of_ascii quoteMark_ascii (by decide)

theorem separator_fits {p : Prop} [Decidable p] {u : UInt16} (h : u.toNat < 128) :
    ∀ chunk ∈ (if p then [[u]] else []), Fits chunk := by
  intro chunk hchunk
  by_cases hp : p
  · rw [if_pos hp] at hchunk
    rw [List.mem_singleton.mp hchunk]
    exact fits_of_ascii (ascii_singleton h) (by simp)
  · rw [if_neg hp] at hchunk
    cases hchunk

mutual

theorem chunk_fits : ∀ (value : Value), ∀ chunk ∈ jsonChunks value, Fits chunk
  | .str s => quoted_fits
  | .null => List.forall_mem_singleton.mpr (fits_of_ascii nullText_ascii (by decide))
  | .bool true => List.forall_mem_singleton.mpr (fits_of_ascii trueText_ascii (by decide))
  | .bool false => List.forall_mem_singleton.mpr (fits_of_ascii falseText_ascii (by decide))
  | .num n => List.forall_mem_singleton.mpr (fits_of_ascii n.ascii n.short)
  | .arr items => by
    have hitems := itemChunk_fits 0 items
    have hopen : Fits [0x5b] := fits_of_ascii (by decide) (by decide)
    have hclose : Fits [0x5d] := fits_of_ascii (by decide) (by decide)
    rw [jsonChunks]
    simp only [List.cons_append, List.forall_mem_cons, List.forall_mem_append]
    exact ⟨hopen, hitems, hclose, List.forall_mem_nil _⟩
  | .obj members => by
    have hmembers := memberChunk_fits true members
    have hopen : Fits [0x7b] := fits_of_ascii (by decide) (by decide)
    have hclose : Fits [0x7d] := fits_of_ascii (by decide) (by decide)
    rw [jsonChunks]
    simp only [List.cons_append, List.forall_mem_cons, List.forall_mem_append]
    exact ⟨hopen, hmembers, hclose, List.forall_mem_nil _⟩

theorem itemChunk_fits (index : Nat) :
    ∀ (items : List (Option Value)), ∀ chunk ∈ itemChunks index items, Fits chunk
  | [] => List.forall_mem_nil _
  | none :: rest => by
    have hrest := itemChunk_fits (index + 1) rest
    rw [itemChunks]
    simp only [List.forall_mem_append, List.forall_mem_singleton]
    exact ⟨⟨separator_fits (by decide), fits_of_ascii nullText_ascii (by decide)⟩, hrest⟩
  | some item :: rest => by
    have hitem := chunk_fits item
    have hrest := itemChunk_fits (index + 1) rest
    rw [itemChunks]
    simp only [List.forall_mem_append]
    exact ⟨⟨separator_fits (by decide), hitem⟩, hrest⟩

theorem memberChunk_fits (first : Bool) : ∀ (members : List (Text × Option Value)),
    ∀ chunk ∈ memberChunks first members, Fits chunk
  | [] => List.forall_mem_nil _
  | (_, none) :: rest => by
    rw [memberChunks]
    exact memberChunk_fits first rest
  | (key, some item) :: rest => by
    have hitem := chunk_fits item
    have hrest := memberChunk_fits false rest
    have hcolon : Fits [colon] := fits_of_ascii (by decide) (by decide)
    rw [memberChunks]
    simp only [List.forall_mem_append, List.forall_mem_singleton]
    exact ⟨⟨⟨⟨separator_fits (by decide), quoted_fits⟩, hcolon⟩, hitem⟩, hrest⟩

end

end ClawRouter.Body
