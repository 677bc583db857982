/-
  Subject:   The frames of a Bedrock event stream (src/worker/bedrock-eventstream.ts, `eventPrelude`,
             `eventHeaders` and `decodeBedrockEventFrame`).

  Reading a byte that is not there is a failure of its own, apart from the errors the source throws.

  * **`eventHeaders_wire`**: headers that are accepted are the bytes of such, one after the other;
  * **`decode_accepted`**, **`decode_inside`**: what an accepted frame is, and that no byte outside of
    a frame is read.
-/
import ClawRouter.Lib.Fallible
import ClawRouter.Lib.TextDecoder
import ClawRouter.Lib.Value

namespace ClawRouter.Bedrock

open Utf16 Js Fallible

abbrev Bytes := List UInt8

/-! ## 1. Bytes -/

/-- Why a frame is not decoded. -/
inductive Failure
  /-- `new Error(message)`. -/
  | thrown (message : String)
  /-- A view that was asked for bytes past its end. -/
  | range
  /-- Bytes that are no UTF-8. -/
  | encoding
  /-- An index that has no byte. -/
  | outside
  deriving DecidableEq

abbrev Result := Except Failure

def byteAt (bytes : Bytes) (index : Nat) : Result UInt8 := demand bytes[index]? .outside

def subarray (bytes : Bytes) (start stop : Nat) : Bytes := (bytes.take stop).drop start

def getUint16 (bytes : Bytes) (offset : Nat) : Result Nat :=
  if offset + 2 ≤ bytes.length then do
    let high ← byteAt bytes offset
    let low ← byteAt bytes (offset + 1)
    .ok (high.toNat * 256 + low.toNat)
  else .error .range

def getUint32 (bytes : Bytes) (offset : Nat) : Result Nat :=
  if offset + 4 ≤ bytes.length then do
    let high ← getUint16 bytes offset
    let low ← getUint16 bytes (offset + 2)
    .ok (high * 65536 + low)
  else .error .range

def decodeText (bytes : Bytes) : Result Text := demand (TextDecoder.decode true bytes) .encoding

def crcStep (value : UInt32) : UInt32 :=
  if value &&& 1 = 1 then (0xedb88320 : UInt32) ^^^ (value >>> 1) else value >>> 1

def crcTable (value : UInt32) : UInt32 := Nat.repeat crcStep 8 value

def crc32 (bytes : Bytes) : UInt32 :=
  (bytes.foldl (fun (value : UInt32) byte =>
    crcTable ((value ^^^ byte.toUInt32) &&& 255) ^^^ (value >>> 8)) 0xffffffff) ^^^ 0xffffffff

/-! ## 2. The source -/

/-- The prelude of a frame that begins at a place. -/
structure Prelude where
  length : Nat
  headerEnd : Nat
  begun : 12 ≤ headerEnd
  ends : headerEnd + 4 ≤ length

def eventPrelude (bytes : Bytes) : Result Prelude :=
  if bytes.length < 12 then .error (.thrown "truncated event prelude")
  else do
    let length ← getUint32 bytes 0
    let headers ← getUint32 bytes 4
    let crc ← getUint32 bytes 8
    if h : (crc32 (subarray bytes 0 8)).toNat ≠ crc ∨ length < 16 ∨ length - 16 < headers then
      .error (.thrown "invalid event prelude")
    else .ok ⟨length, 12 + headers, by omega, by omega⟩

def headerSizes : List Nat := [0, 0, 1, 2, 4, 8, 0, 0, 8, 16]

/-- One header, and where the next one begins. -/
structure Header (bytes : Bytes) (offset : Nat) where
  name : Text
  /-- The text of a name that begins with a colon. -/
  value : Option Text
  next : Nat
  later : offset < next
  within : next ≤ bytes.length

/-- The size of a value, and where it begins. -/
structure Extent (offset : Nat) where
  size : Nat
  start : Nat
  after : offset ≤ start

def valueExtent (bytes : Bytes) (type offset : Nat) : Result (Extent offset) :=
  match headerSizes[type]? with
  | none => .error (.thrown "invalid event header type")
  | some size =>
    if type = 6 ∨ type = 7 then do
      let size ← getUint16 bytes offset
      .ok ⟨size, offset + 2, Nat.le_add_right offset 2⟩
    else .ok ⟨size, offset, Nat.le_refl offset⟩

def headerValue (bytes : Bytes) (name : Text) (offset : Nat) : Result (Header bytes offset) := do
  let type ← byteAt bytes offset
  let ⟨size, start, after⟩ ← valueExtent bytes type.toNat (offset + 1)
  if h : bytes.length < start + size then .error (.thrown "truncated event header")
  else if startsWith (text ":") name then
    if type ≠ 7 then .error (.thrown "invalid event metadata")
    else do
      let value ← decodeText (subarray bytes start (start + size))
      .ok ⟨name, some value, start + size, by omega, by omega⟩
  else .ok ⟨name, none, start + size, by omega, by omega⟩

def eventHeader (bytes : Bytes) (names : List Text) (offset : Nat) : Result (Header bytes offset) := do
  let length ← byteAt bytes offset
  if length = 0 ∨ bytes.length < offset + 1 + length.toNat + 1 then .error (.thrown "invalid event header")
  else do
    let name ← decodeText (subarray bytes (offset + 1) (offset + 1 + length.toNat))
    if name ∈ names then .error (.thrown "duplicate event header")
    else do
      let header ← headerValue bytes name (offset + 1 + length.toNat)
      .ok { header with later := by have := header.later; omega }

def headersFrom (bytes : Bytes) (names : List Text) (result : List (Text × Text)) (offset : Nat) :
    Result (List (Text × Text)) :=
  if offset < bytes.length then do
    let header ← eventHeader bytes names offset
    headersFrom bytes (header.name :: names)
      (result ++ (header.value.map fun value => (header.name, value)).toList) header.next
  else .ok result
termination_by bytes.length - offset
decreasing_by
  have := header.later
  omega

def eventHeaders (bytes : Bytes) : Result (List (Text × Text)) := headersFrom bytes [] [] 0

/-- A frame that was decoded. -/
structure Decoded where
  headers : List (Text × Text)
  payload : Bytes
  deriving DecidableEq

def decodeBedrockEventFrame (frame : Bytes) : Result Decoded := do
  let ⟨length, headerEnd, _, _⟩ ← eventPrelude frame
  if frame.length ≠ length then .error (.thrown "invalid event frame")
  else do
    let crc ← getUint32 frame (length - 4)
    if (crc32 (subarray frame 0 (length - 4))).toNat ≠ crc then .error (.thrown "invalid event frame")
    else do
      let headers ← eventHeaders (subarray frame 12 headerEnd)
      .ok ⟨headers, subarray frame headerEnd (length - 4)⟩

/-! ## 3. What is read -/

theorem byteAt_ok {bytes : Bytes} {index : Nat} {byte : UInt8} (h : byteAt bytes index = .ok byte) :
    bytes.drop index = byte :: bytes.drop (index + 1) := by
  obtain ⟨hlt, hget⟩ := List.getElem?_eq_some_iff.mp (demand_ok.mp h)
  rw [List.drop_eq_getElem_cons hlt, hget]

theorem byteAt_lt {bytes : Bytes} {index : Nat} (h : index < bytes.length) :
    byteAt bytes index = .ok bytes[index] := by
  unfold byteAt
  rw [List.getElem?_eq_getElem h]
  rfl

/-- The two bytes of a number, the high one first. -/
def pair (n : Nat) : Bytes := [UInt8.ofNat (n / 256), UInt8.ofNat n]

theorem pair_toNat (high low : UInt8) : pair (high.toNat * 256 + low.toNat) = [high, low] := by
  have hlow : low.toNat < 256 := low.toNat_lt
  have hdiv : (high.toNat * 256 + low.toNat) / 256 = high.toNat := by omega
  unfold pair
  rw [hdiv, UInt8.ofNat_toNat, UInt8.ofNat_add, UInt8.ofNat_mul, UInt8.ofNat_toNat, UInt8.ofNat_toNat]
  simp

theorem getUint16_ok {bytes : Bytes} {offset n : Nat} (h : getUint16 bytes offset = .ok n) :
    bytes.drop offset = pair n ++ bytes.drop (offset + 2) ∧ n < 65536 := by
  unfold getUint16 at h
  split at h
  · obtain ⟨high, hhigh, h⟩ := bind_ok.mp h
    obtain ⟨low, hlow, h⟩ := bind_ok.mp h
    cases h
    have h1 : high.toNat < 256 := high.toNat_lt
    have h2 : low.toNat < 256 := low.toNat_lt
    refine ⟨?_, by omega⟩
    rw [pair_toNat, byteAt_ok hhigh, byteAt_ok hlow]
    rfl
  · cases h

theorem subarray_append {bytes : Bytes} {start stop : Nat} (h : start ≤ stop) :
    bytes.drop start = subarray bytes start stop ++ bytes.drop stop := by
  have hstop : bytes.drop stop = (bytes.drop start).drop (stop - start) := by
    rw [List.drop_drop, Nat.add_sub_cancel' h]
  unfold subarray
  rw [List.drop_take, hstop]
  exact (List.take_append_drop (stop - start) (bytes.drop start)).symm

theorem subarray_length {bytes : Bytes} {start stop : Nat} (h : stop ≤ bytes.length) :
    (subarray bytes start stop).length = stop - start := by
  unfold subarray
  rw [List.length_drop, List.length_take, Nat.min_eq_left h]

/-! ## 4. Headers on the wire -/

/-- A header as its bytes are: a value of one of the types 6 and 7 is preceded by its size. -/
structure Wire where
  name : Bytes
  type : UInt8
  value : Bytes

namespace Wire

def sizeBytes (w : Wire) : Bytes := if w.type = 6 ∨ w.type = 7 then pair w.value.length else []

def bytes (w : Wire) : Bytes := UInt8.ofNat w.name.length :: w.name ++ w.type :: w.sizeBytes ++ w.value

/-- The name of a header whose name begins with a colon, and its text. -/
def metadata (w : Wire) : List (Text × Text) :=
  match TextDecoder.decode true w.name, TextDecoder.decode true w.value with
  | some name, some value => if startsWith (text ":") name then [(name, value)] else []
  | _, _ => []

theorem metadata_plain {w : Wire} {name : Text} (hname : TextDecoder.decode true w.name = some name)
    (h : startsWith (text ":") name = false) : w.metadata = [] := by
  unfold metadata
  rw [hname]
  split
  · rename_i heq _
    cases heq
    rw [h]
    rfl
  · rfl

theorem metadata_text {w : Wire} {name value : Text} (hname : TextDecoder.decode true w.name = some name)
    (hvalue : TextDecoder.decode true w.value = some value) (h : startsWith (text ":") name = true) :
    w.metadata = [(name, value)] := by
  unfold metadata
  rw [hname, hvalue]
  exact if_pos h

/-- What the rules of the format ask of a header. -/
structure Correct (w : Wire) : Prop where
  named : 0 < w.name.length ∧ w.name.length < 256
  named_text : (TextDecoder.decode true w.name).isSome = true
  sized : if w.type = 6 ∨ w.type = 7 then w.value.length < 65536
    else headerSizes[w.type.toNat]? = some w.value.length
  metadata_text : ∀ name, TextDecoder.decode true w.name = some name → startsWith (text ":") name = true →
    w.type = 7 ∧ (TextDecoder.decode true w.value).isSome = true

end Wire

theorem valueExtent_ok {bytes : Bytes} {type : UInt8} {offset : Nat} {e : Extent offset}
    (h : valueExtent bytes type.toNat offset = .ok e) :
    (bytes.drop offset = (if type = 6 ∨ type = 7 then pair e.size else []) ++ bytes.drop e.start) ∧
      if type = 6 ∨ type = 7 then e.size < 65536 else headerSizes[type.toNat]? = some e.size := by
  have htype : (type.toNat = 6 ∨ type.toNat = 7) ↔ (type = 6 ∨ type = 7) := by
    rw [← UInt8.toNat_inj, ← UInt8.toNat_inj]
    rfl
  unfold valueExtent at h
  split at h
  · cases h
  · rename_i size hsize
    by_cases htyped : type = 6 ∨ type = 7
    · rw [if_pos (htype.mpr htyped)] at h
      obtain ⟨n, hn, h⟩ := bind_ok.mp h
      cases h
      obtain ⟨hdrop, hlt⟩ := getUint16_ok hn
      rw [if_pos htyped, if_pos htyped]
      exact ⟨hdrop, hlt⟩
    · rw [if_neg fun hc => htyped (htype.mp hc)] at h
      cases h
      rw [if_neg htyped, if_neg htyped]
      exact ⟨rfl, hsize⟩

theorem headerValue_ok {bytes title : Bytes} {name : Text} {offset : Nat} {header : Header bytes offset}
    (htitle : 0 < title.length ∧ title.length < 256) (hname : TextDecoder.decode true title = some name)
    (h : headerValue bytes name offset = .ok header) :
    header.name = name ∧ ∃ w : Wire, w.name = title ∧ w.Correct ∧
      bytes.drop offset = w.type :: w.sizeBytes ++ w.value ++ bytes.drop header.next ∧
      (header.value.map fun value => (name, value)).toList = w.metadata := by
  obtain ⟨type, htype, h⟩ := bind_ok.mp h
  obtain ⟨⟨size, start, after⟩, hextent, h⟩ := bind_ok.mp h
  dsimp only at h
  obtain ⟨hdrop, hsized⟩ := valueExtent_ok hextent
  split at h
  · cases h
  · rename_i hle
    have hfits : start + size ≤ bytes.length := by omega
    have hsize : (subarray bytes start (start + size)).length = size := by
      rw [subarray_length hfits, Nat.add_sub_cancel_left]
    let w : Wire := ⟨title, type, subarray bytes start (start + size)⟩
    have hbytes : bytes.drop offset = w.type :: w.sizeBytes ++ w.value ++ bytes.drop (start + size) := by
      rw [byteAt_ok htype, hdrop, subarray_append (Nat.le_add_right start size)]
      show _ = type :: (if type = 6 ∨ type = 7 then pair
        (subarray bytes start (start + size)).length else []) ++ _ ++ _
      rw [hsize, List.cons_append, List.cons_append, List.append_assoc]
    have hw : (if w.type = 6 ∨ w.type = 7 then w.value.length < 65536
        else headerSizes[w.type.toNat]? = some w.value.length) := by
      rw [hsize]
      exact hsized
    have hnamed : (TextDecoder.decode true title).isSome = true := by
      rw [hname]
      rfl
    split at h
    · rename_i hcolon
      split at h
      · cases h
      · rename_i htype7
        obtain ⟨value, hvalue, h⟩ := bind_ok.mp h
        cases h
        have hdecoded : TextDecoder.decode true w.value = some value := demand_ok.mp hvalue
        refine ⟨rfl, w, rfl, ⟨htitle, hnamed, hw, fun _ _ _ => ⟨Decidable.not_not.mp htype7, ?_⟩⟩, hbytes, ?_⟩
        · rw [hdecoded]
          rfl
        · exact (Wire.metadata_text hname hdecoded hcolon).symm
    · rename_i hcolon
      cases h
      have hplain : startsWith (text ":") name = false := Bool.not_eq_true _ ▸ hcolon
      refine ⟨rfl, w, rfl, ⟨htitle, hnamed, hw, fun other hother hc => ?_⟩, hbytes, ?_⟩
      · cases (hname.symm.trans hother)
        rw [hplain] at hc
        cases hc
      · exact (Wire.metadata_plain hname hplain).symm

theorem eventHeader_ok {bytes : Bytes} {names : List Text} {offset : Nat} {header : Header bytes offset}
    (h : eventHeader bytes names offset = .ok header) :
    header.name ∉ names ∧ ∃ w : Wire, w.Correct ∧ TextDecoder.decode true w.name = some header.name ∧
      bytes.drop offset = w.bytes ++ bytes.drop header.next ∧
      (header.value.map fun value => (header.name, value)).toList = w.metadata := by
  obtain ⟨length, hlength, h⟩ := bind_ok.mp h
  split at h
  · cases h
  · rename_i hfit
    obtain ⟨hpos, hle⟩ := not_or.mp hfit
    obtain ⟨name, hname, h⟩ := bind_ok.mp h
    split at h
    · cases h
    · rename_i hnew
      obtain ⟨inner, hinner, h⟩ := bind_ok.mp h
      cases h
      have hdecoded := demand_ok.mp hname
      have htitle : (subarray bytes (offset + 1) (offset + 1 + length.toNat)).length = length.toNat := by
        rw [subarray_length (by omega), Nat.add_sub_cancel_left]
      have hlt : length.toNat < 256 := length.toNat_lt
      have hne : length.toNat ≠ 0 := fun h0 => hpos (UInt8.toNat_inj.mp h0)
      obtain ⟨hsame, w, hw, hcorrect, hrest, hmetadata⟩ := headerValue_ok (by omega) hdecoded hinner
      rw [hsame]
      refine ⟨hnew, w, hcorrect, by rw [hw]; exact hdecoded, ?_, hmetadata⟩
      rw [byteAt_ok hlength, subarray_append (Nat.le_add_right (offset + 1) length.toNat), hrest]
      show _ = UInt8.ofNat w.name.length :: w.name ++ w.type :: w.sizeBytes ++ w.value ++ _
      rw [hw, htitle, UInt8.ofNat_toNat]
      simp only [List.cons_append, List.append_assoc]

theorem headersFrom_wire {bytes : Bytes} {names : List Text} {result all : List (Text × Text)} {offset : Nat}
    (h : headersFrom bytes names result offset = .ok all) :
    ∃ ws : List Wire, bytes.drop offset = ws.flatMap Wire.bytes ∧ (∀ w ∈ ws, w.Correct) ∧
      (ws.map fun w => TextDecoder.decode true w.name).Nodup ∧
      (∀ w ∈ ws, ∀ name ∈ names, TextDecoder.decode true w.name ≠ some name) ∧
      all = result ++ ws.flatMap Wire.metadata := by
  rw [headersFrom] at h
  split at h
  · rename_i hlt
    obtain ⟨header, hheader, h⟩ := bind_ok.mp h
    obtain ⟨hnew, w, hcorrect, hname, hbytes, hmetadata⟩ := eventHeader_ok hheader
    obtain ⟨ws, hrest, hall, hnodup, hapart, hresult⟩ := headersFrom_wire h
    refine ⟨w :: ws, ?_, ?_, ?_, ?_, ?_⟩
    · rw [hbytes, hrest, List.flatMap_cons]
    · intro v hv
      obtain rfl | hv := List.mem_cons.mp hv
      · exact hcorrect
      · exact hall v hv
    · rw [List.map_cons, List.nodup_cons, hname]
      refine ⟨fun hmem => ?_, hnodup⟩
      obtain ⟨v, hv, heq⟩ := List.mem_map.mp hmem
      exact hapart v hv header.name List.mem_cons_self heq
    · intro v hv name hmem
      obtain rfl | hv := List.mem_cons.mp hv
      · rw [hname]
        intro heq
        cases heq
        exact hnew hmem
      · exact hapart v hv name (List.mem_cons_of_mem _ hmem)
    · rw [hresult, hmetadata, List.flatMap_cons, List.append_assoc]
  · rename_i hge
    cases h
    refine ⟨[], ?_, fun _ hw => absurd hw List.not_mem_nil, List.nodup_nil,
      fun _ hw => absurd hw List.not_mem_nil, (List.append_nil _).symm⟩
    exact List.drop_eq_nil_of_le (Nat.le_of_not_lt hge)
termination_by bytes.length - offset
decreasing_by
  have := header.later
  omega

/-- **Headers that are accepted are consumed to the last byte**: they are headers by the rules, one after the
other, no two of one name, and what is kept is the text of those that begin with a colon. -/
theorem eventHeaders_wire {bytes : Bytes} {headers : List (Text × Text)}
    (h : eventHeaders bytes = .ok headers) :
    ∃ ws : List Wire, bytes = ws.flatMap Wire.bytes ∧ (∀ w ∈ ws, w.Correct) ∧
      (ws.map fun w => TextDecoder.decode true w.name).Nodup ∧ headers = ws.flatMap Wire.metadata := by
  obtain ⟨ws, hbytes, hcorrect, hnodup, _, hheaders⟩ := headersFrom_wire h
  exact ⟨ws, hbytes, hcorrect, hnodup, hheaders⟩

/-! ## 5. Frames -/

theorem eventPrelude_ok {bytes : Bytes} {p : Prelude} (h : eventPrelude bytes = .ok p) :
    12 ≤ bytes.length ∧ getUint32 bytes 0 = .ok p.length ∧ getUint32 bytes 4 = .ok (p.headerEnd - 12) ∧
      getUint32 bytes 8 = .ok (crc32 (subarray bytes 0 8)).toNat := by
  unfold eventPrelude at h
  split at h
  · cases h
  · rename_i hlt
    obtain ⟨length, hlength, h⟩ := bind_ok.mp h
    obtain ⟨headers, hheaders, h⟩ := bind_ok.mp h
    obtain ⟨crc, hcrc, h⟩ := bind_ok.mp h
    split at h
    · cases h
    · rename_i hvalid
      cases h
      refine ⟨by omega, hlength, ?_, ?_⟩
      · rw [hheaders, Nat.add_sub_cancel_left]
      · have hsame : (crc32 (subarray bytes 0 8)).toNat = crc := by
          by_contra hne
          exact hvalid (.inl hne)
        rw [hcrc, hsame]

/-- The frame is of these headers and this payload. -/
structure Accepted (frame : Bytes) (d : Decoded) : Prop where
  size : getUint32 frame 0 = .ok frame.length
  prelude_crc : getUint32 frame 8 = .ok (crc32 (subarray frame 0 8)).toNat
  message_crc : getUint32 frame (frame.length - 4) = .ok (crc32 (subarray frame 0 (frame.length - 4))).toNat
  /-- The headers end where the prelude says, and the payload is what follows up to the checksum. -/
  headers : ∃ ws : List Wire, getUint32 frame 4 = .ok (ws.flatMap Wire.bytes).length ∧
    frame = subarray frame 0 12 ++ ws.flatMap Wire.bytes ++ d.payload ++ frame.drop (frame.length - 4) ∧
    (∀ w ∈ ws, w.Correct) ∧ (ws.map fun w => TextDecoder.decode true w.name).Nodup ∧
    d.headers = ws.flatMap Wire.metadata

theorem decode_accepted {frame : Bytes} {d : Decoded} (h : decodeBedrockEventFrame frame = .ok d) :
    Accepted frame d := by
  obtain ⟨p, hprelude, h⟩ := bind_ok.mp h
  obtain ⟨_, hlength, hheaders, hprelude_crc⟩ := eventPrelude_ok hprelude
  obtain ⟨length, headerEnd, hbegun, hends⟩ := p
  dsimp only at h hlength hheaders
  split at h
  · cases h
  · rename_i hsame
    have hsize : frame.length = length := Decidable.not_not.mp hsame
    subst hsize
    obtain ⟨crc, hcrc, h⟩ := bind_ok.mp h
    split at h
    · cases h
    · rename_i hequal
      obtain ⟨headers, hparsed, h⟩ := bind_ok.mp h
      cases h
      obtain ⟨ws, hbytes, hcorrect, hnodup, hmetadata⟩ := eventHeaders_wire hparsed
      have hcount : (ws.flatMap Wire.bytes).length = headerEnd - 12 := by
        rw [← hbytes]
        exact subarray_length (by omega)
      refine ⟨hlength, hprelude_crc, ?_, ws, ?_, ?_, hcorrect, hnodup, hmetadata⟩
      · rw [hcrc, Decidable.not_not.mp hequal]
      · rw [hheaders, hcount]
      · rw [← hbytes, List.append_assoc, List.append_assoc, ← subarray_append (by omega),
          ← subarray_append hbegun, ← subarray_append (Nat.zero_le 12)]
        rfl

/-! ## 6. No byte outside -/

def Inside {α : Type} (x : Result α) : Prop := x ≠ .error .outside

section Inside

variable {α β : Type}

theorem inside_ok (a : α) : Inside (.ok a : Result α) := nofun

theorem inside_thrown (message : String) : Inside (.error (.thrown message) : Result α) := nofun

theorem Inside.bind {x : Result α} {f : α → Result β} (hx : Inside x) (hf : ∀ a, x = .ok a → Inside (f a)) :
    Inside (x >>= f) := by
  intro h
  obtain h | ⟨a, ha, h⟩ := bind_error.mp h
  · exact hx h
  · exact hf a ha h

theorem byteAt_inside {bytes : Bytes} {index : Nat} (h : index < bytes.length) :
    Inside (byteAt bytes index) := by
  rw [byteAt_lt h]
  exact inside_ok _

theorem getUint16_inside (bytes : Bytes) (offset : Nat) : Inside (getUint16 bytes offset) := by
  unfold getUint16
  split
  · refine (byteAt_inside (by omega)).bind fun high _ => (byteAt_inside (by omega)).bind fun low _ => ?_
    exact inside_ok _
  · nofun

theorem getUint32_inside (bytes : Bytes) (offset : Nat) : Inside (getUint32 bytes offset) := by
  unfold getUint32
  split
  · refine (getUint16_inside bytes offset).bind fun high _ => (getUint16_inside bytes _).bind fun low _ => ?_
    exact inside_ok _
  · nofun

theorem decodeText_inside (bytes : Bytes) : Inside (decodeText bytes) := by
  unfold decodeText demand
  split
  · exact inside_ok _
  · nofun

theorem eventPrelude_inside (bytes : Bytes) : Inside (eventPrelude bytes) := by
  unfold eventPrelude
  split
  · exact inside_thrown _
  · refine (getUint32_inside bytes 0).bind fun length _ => (getUint32_inside bytes 4).bind fun headers _ =>
      (getUint32_inside bytes 8).bind fun crc _ => ?_
    split
    · exact inside_thrown _
    · exact inside_ok _

theorem valueExtent_inside (bytes : Bytes) (type offset : Nat) : Inside (valueExtent bytes type offset) := by
  unfold valueExtent
  split
  · exact inside_thrown _
  · split
    · exact (getUint16_inside bytes offset).bind fun size _ => inside_ok _
    · exact inside_ok _

theorem headerValue_inside {bytes : Bytes} {offset : Nat} (name : Text) (h : offset < bytes.length) :
    Inside (headerValue bytes name offset) := by
  refine (byteAt_inside h).bind fun type _ => (valueExtent_inside bytes _ _).bind fun extent _ => ?_
  dsimp only
  split
  · exact inside_thrown _
  · split
    · split
      · exact inside_thrown _
      · exact (decodeText_inside _).bind fun value _ => inside_ok _
    · exact inside_ok _

theorem eventHeader_inside {bytes : Bytes} {offset : Nat} (names : List Text) (h : offset < bytes.length) :
    Inside (eventHeader bytes names offset) := by
  refine (byteAt_inside h).bind fun length _ => ?_
  split
  · exact inside_thrown _
  · rename_i hfit
    refine (decodeText_inside _).bind fun name _ => ?_
    split
    · exact inside_thrown _
    · exact (headerValue_inside name (by omega)).bind fun header _ => inside_ok _

theorem headersFrom_inside (bytes : Bytes) (names : List Text) (result : List (Text × Text)) (offset : Nat) :
    Inside (headersFrom bytes names result offset) := by
  rw [headersFrom]
  split
  · rename_i hlt
    refine (eventHeader_inside names hlt).bind fun header _ => ?_
    exact headersFrom_inside bytes _ _ header.next
  · exact inside_ok _
termination_by bytes.length - offset
decreasing_by
  have := header.later
  omega

/-- **No byte outside of a frame is read**, whatever its bytes are. -/
theorem decode_inside (frame : Bytes) : Inside (decodeBedrockEventFrame frame) := by
  refine (eventPrelude_inside frame).bind fun p _ => ?_
  dsimp only
  split
  · exact inside_thrown _
  · refine (getUint32_inside frame _).bind fun crc _ => ?_
    split
    · exact inside_thrown _
    · exact (headersFrom_inside _ _ _ _).bind fun headers _ => inside_ok _

end Inside

end ClawRouter.Bedrock
