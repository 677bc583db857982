/-
  Subject:   The multipart reader of a transcription upload (`parseMultipart` of
             src/worker/transcription-body.ts).

  The bytes are read with a cursor; a part is the headers up to a blank line and the body up to a
  boundary that goes on or closes.

  * `acceptPart`, `parsePart`, `parseFrom`, `parseMultipart`: the parts and the whole.
-/
import ClawRouter.Lib.Fallible
import ClawRouter.Lib.TextDecoder
import ClawRouter.Lib.Value

namespace ClawRouter.Transcription

open Utf16
open Fallible (require demand)

abbrev Bytes := List UInt8

def ascii (s : String) : Bytes := s.toList.map fun c => UInt8.ofNat c.toNat

/-- The bytes of a literal, one for each of its letters. -/
theorem ascii_ofList (chars : List Char) : ascii (String.ofList chars) = chars.map fun c =>
    UInt8.ofNat c.toNat := by
  rw [ascii, String.toList_ofList]

/-! ## 1. Limits and refusals -/

def fileLimit : Nat := 25000000

def promptLimit : Nat := 16384

def headersLimit : Nat := 2048

def partsLimit : Nat := 6

/-- Why a form is refused. -/
inductive Refusal
  | http (status : Nat) (code message : String)
  | typeError
  deriving DecidableEq

def invalid (message : String) : Refusal := .http 400 "invalid_transcription_upload" message

def tooLarge : Refusal :=
  .http 413 "transcription_body_too_large"
    "audio file must contain 1 to 25000000 bytes and fit the raw upload limit"

def unsupportedOption (message : String) : Refusal := .http 400 "transcription_option_unsupported" message

/-! ## 2. Searches -/

def crlf : Bytes := [13, 10]

def dashes : Bytes := [45, 45]

def headersEnd : Bytes := crlf ++ crlf

def isAt (bytes target : Bytes) (offset : Nat) : Bool :=
  offset + target.length ≤ bytes.length && target.isPrefixOf (bytes.drop offset)

def find (bytes target : Bytes) (start stop : Nat) : Option Nat :=
  if start + target.length ≤ stop then
    if bytes[start]? = target[0]? ∧ isAt bytes target start then some start
    else find bytes target (start + 1) stop
  else none
termination_by stop + 1 - start

/-- A separator that a line end or a closing follows. -/
def delimits (bytes separator : Bytes) (next : Nat) : Bool :=
  isAt bytes separator next &&
    (isAt bytes crlf (next + separator.length) || isAt bytes dashes (next + separator.length))

variable {n offset start : Nat}

theorem isAt_iff {bytes target : Bytes} (h : target ≠ []) :
    isAt bytes target offset = true ↔ target <+: bytes.drop offset := by
  unfold isAt
  rw [Bool.and_eq_true, decide_eq_true_iff, List.isPrefixOf_iff_prefix]
  refine ⟨fun h => h.2, fun hp => ⟨?_, hp⟩⟩
  have hle := hp.length_le
  have hpos := List.length_pos_of_ne_nil h
  rw [List.length_drop] at hle
  omega

theorem isAt_length {bytes target : Bytes} (h : isAt bytes target offset = true) :
    offset + target.length ≤ bytes.length := by
  unfold isAt at h
  rw [Bool.and_eq_true, decide_eq_true_iff] at h
  exact h.1

theorem isAt_first {bytes target : Bytes} (hne : target ≠ []) (h : isAt bytes target offset = true) :
    bytes[offset]? = target[0]? := by
  obtain ⟨rest, hrest⟩ := (isAt_iff hne).mp h
  have hhead : (bytes.drop offset)[0]? = (target ++ rest)[0]? := by rw [hrest]
  rw [List.getElem?_drop, Nat.add_zero] at hhead
  rw [hhead, List.getElem?_append_left (List.length_pos_of_ne_nil hne)]

theorem find_eq_some {bytes target : Bytes} {stop : Nat} (hne : target ≠ []) :
    find bytes target start stop = some n ↔
      start ≤ n ∧ n + target.length ≤ stop ∧ isAt bytes target n = true ∧
        ∀ j, start ≤ j → j < n → isAt bytes target j = false := by
  induction start using find.induct bytes target stop with
  | case1 start hle hat =>
    rw [find, if_pos hle, if_pos hat]
    constructor
    · intro h
      cases h
      exact ⟨le_refl _, hle, hat.2, fun j hj hjn => absurd hjn (Nat.not_lt.mpr hj)⟩
    · rintro ⟨hstart, _, _, hquiet⟩
      rcases Nat.eq_or_lt_of_le hstart with rfl | hlt
      · rfl
      · have := hquiet start (le_refl _) hlt
        rw [hat.2] at this
        cases this
  | case2 start hle hat ih =>
    have hmiss : isAt bytes target start = false := by
      refine Bool.eq_false_iff.mpr fun h => hat ⟨isAt_first hne h, h⟩
    rw [find, if_pos hle, if_neg hat, ih]
    constructor
    · rintro ⟨hstart, hstop, hn, hquiet⟩
      refine ⟨by omega, hstop, hn, fun j hj hjn => ?_⟩
      rcases Nat.eq_or_lt_of_le hj with rfl | hlt
      · exact hmiss
      · exact hquiet j hlt hjn
    · rintro ⟨hstart, hstop, hn, hquiet⟩
      refine ⟨?_, hstop, hn, fun j hj hjn => hquiet j (by omega) hjn⟩
      rcases Nat.eq_or_lt_of_le hstart with rfl | hlt
      · rw [hmiss] at hn
        cases hn
      · exact hlt
  | case3 start hle =>
    rw [find, if_neg hle]
    constructor
    · intro h
      cases h
    · rintro ⟨hstart, hstop, _, _⟩
      omega

theorem find_le {bytes target : Bytes} {stop : Nat} (hne : target ≠ []) (hstart : start ≤ n)
    (hstop : n + target.length ≤ stop) (hn : isAt bytes target n = true) :
    ∃ m ≤ n, find bytes target start stop = some m := by
  have hex : ∃ m, start ≤ m ∧ isAt bytes target m = true := ⟨n, hstart, hn⟩
  have hle : Nat.find hex ≤ n := Nat.find_min' hex ⟨hstart, hn⟩
  refine ⟨Nat.find hex, hle, (find_eq_some hne).mpr ?_⟩
  obtain ⟨hlow, hat⟩ := Nat.find_spec hex
  refine ⟨hlow, by omega, hat, fun j hj hjn => ?_⟩
  exact Bool.eq_false_iff.mpr fun h => Nat.find_min hex hjn ⟨hj, h⟩

def findBoundary (bytes separator : Bytes) (hne : separator ≠ []) (start : Nat) : Option Nat :=
  match h : find bytes separator start bytes.length with
  | none => none
  | some next =>
    if isAt bytes crlf (next + separator.length) || isAt bytes dashes (next + separator.length) then some next
    else findBoundary bytes separator hne (next + 1)
termination_by bytes.length + 1 - start
decreasing_by
  have hfound := (find_eq_some hne).mp h
  omega

theorem delimits_isAt {bytes separator : Bytes} (h : delimits bytes separator n = true) :
    isAt bytes separator n = true := (Bool.and_eq_true_iff.mp h).1

theorem not_delimits {bytes separator : Bytes} (h : isAt bytes separator n = false) :
    delimits bytes separator n = false := by
  unfold delimits
  rw [h, Bool.false_and]

theorem findBoundary_eq_some {bytes separator : Bytes} (hne : separator ≠ []) :
    findBoundary bytes separator hne start = some n ↔ start ≤ n ∧ delimits bytes separator n = true ∧
        ∀ j, start ≤ j → j < n → delimits bytes separator j = false := by
  induction start using findBoundary.induct bytes separator hne with
  | case1 start hnone =>
    rw [findBoundary]
    split
    · constructor
      · intro h
        cases h
      · rintro ⟨hstart, hn, _⟩
        have hat := delimits_isAt hn
        obtain ⟨m, _, hfound⟩ := find_le hne hstart (isAt_length hat) hat
        rw [hnone] at hfound
        cases hfound
    · rename_i h
      rw [hnone] at h
      cases h
  | case2 start next hnext hend =>
    obtain ⟨hlow, _, hat, hquiet⟩ := (find_eq_some hne).mp hnext
    have hdelimits : delimits bytes separator next = true := by
      unfold delimits
      rw [hat, hend]
      rfl
    rw [findBoundary]
    split
    · rename_i h
      rw [hnext] at h
      cases h
    · rename_i next' h
      rw [hnext] at h
      cases h
      rw [if_pos hend]
      constructor
      · intro h
        cases h
        exact ⟨hlow, hdelimits, fun j hj hjn => not_delimits (hquiet j hj hjn)⟩
      · rintro ⟨hstart, hn, hbefore⟩
        rcases Nat.lt_trichotomy next n with hlt | rfl | hlt
        · have := hbefore next hlow hlt
          rw [hdelimits] at this
          cases this
        · rfl
        · have := hquiet n hstart hlt
          rw [delimits_isAt hn] at this
          cases this
  | case3 start next hnext hend ih =>
    obtain ⟨hlow, _, hat, hquiet⟩ := (find_eq_some hne).mp hnext
    have hpassed : ∀ j, start ≤ j → j < next + 1 → delimits bytes separator j = false := by
      intro j hj hjn
      rcases Nat.eq_or_lt_of_le (Nat.le_of_lt_succ hjn) with rfl | hlt
      · unfold delimits
        rw [Bool.eq_false_iff.mpr hend, Bool.and_false]
      · exact not_delimits (hquiet j hj hlt)
    rw [findBoundary]
    split
    · rename_i h
      rw [hnext] at h
      cases h
    · rename_i next' h
      rw [hnext] at h
      cases h
      rw [if_neg hend, ih]
      constructor
      · rintro ⟨hstart, hn, hbefore⟩
        refine ⟨by omega, hn, fun j hj hjn => ?_⟩
        rcases Nat.lt_or_ge j (next + 1) with hlt | hge
        · exact hpassed j hj hlt
        · exact hbefore j hge hjn
      · rintro ⟨hstart, hn, hbefore⟩
        refine ⟨?_, hn, fun j hj hjn => hbefore j (by omega) hjn⟩
        rcases Nat.lt_or_ge n (next + 1) with hlt | hge
        · have := hpassed n hstart hlt
          rw [hn] at this
          cases this
        · exact hge

/-! ## 3. The headers of a part -/

def isBlank (b : UInt8) : Bool := b = 32 || b = 9

def lowerByte (b : UInt8) : UInt8 := if 65 ≤ b.toNat ∧ b.toNat ≤ 90 then b + 32 else b

def lower (t : Bytes) : Bytes := t.map lowerByte

def asciiText (bytes : Bytes) : Option Bytes :=
  if bytes.any fun b => b.toNat < 32 && b != 13 && b != 10 && b != 9 || 126 < b.toNat then none else some bytes

def splitLines : Bytes → List Bytes
  | [] => [[]]
  | 13 :: 10 :: rest => [] :: splitLines rest
  | b :: rest =>
    match splitLines rest with
    | [] => [[b]]
    | line :: lines => (b :: line) :: lines

/-- The headers a part may have. -/
inductive HeaderName
  | disposition
  | type
  deriving DecidableEq

def HeaderName.text : HeaderName → Bytes
  | .disposition => ascii "content-disposition"
  | .type => ascii "content-type"

/-- What `[ \t]*([^\r\n]+)$` captures: blanks before it are left out, but the value is never empty. -/
def headerValue (rest : Bytes) : Option Bytes :=
  if rest.any fun b => b = 13 || b = 10 then none
  else
    match rest.dropWhile isBlank with
    | [] => rest.getLast?.map fun b => [b]
    | value => some value

/-- `/^(Content-Disposition|Content-Type):[ \t]*([^\r\n]+)$/i`. -/
def headerLine (line : Bytes) : Option (HeaderName × Bytes) :=
  [HeaderName.disposition, .type].findSome? fun name =>
    let size := name.text.length
    if lower (line.take size) = name.text ∧ (line)[size]? = some 58 then
      (headerValue (line.drop (size + 1))).map fun value => (name, value)
    else none

/-- The headers of a part. -/
structure Headers where
  disposition : Option Bytes
  type : Option Bytes
  deriving DecidableEq

def Headers.get (h : Headers) : HeaderName → Option Bytes
  | .disposition => h.disposition
  | .type => h.type

def Headers.set (h : Headers) (name : HeaderName) (value : Bytes) : Headers :=
  match name with
  | .disposition => { h with disposition := some value }
  | .type => { h with type := some value }

def acceptLine (h : Headers) (line : Bytes) : Option Headers := do
  let (name, value) ← headerLine line
  if (h.get name).isSome then none else some (h.set name value)

/-- The lines of a part, each a header that has not been there. -/
def partHeaders (text : Bytes) : Option Headers := (splitLines text).foldlM acceptLine ⟨none, none⟩

def isNameByte (b : UInt8) : Bool := 97 ≤ b.toNat && b.toNat ≤ 122 || b = 95

/-- `/^form-data; name="([a-z_]+)"(?:; filename="([^"\r\n]*)")?$/`. -/
def readDisposition (value : Bytes) : Option (Bytes × Option Bytes) :=
  let front := ascii "form-data; name=\""
  let more := ascii "\"; filename=\""
  if front.isPrefixOf value then
    let name := (value.drop front.length).takeWhile isNameByte
    let rest := (value.drop front.length).dropWhile isNameByte
    if name = [] then none
    else if rest = [34] then some (name, none)
    else if more.isPrefixOf rest then
      let isPlain := fun b : UInt8 => b != 34 && b != 13 && b != 10
      let filename := (rest.drop more.length).takeWhile isPlain
      if (rest.drop more.length).dropWhile isPlain = [34] then some (name, some filename) else none
    else none
  else none

/-! ## 4. The body of a part -/

def formats : List (Bytes × List Bytes) :=
  [("flac", ["audio/flac", "audio/x-flac"]), ("ogg", ["audio/ogg", "application/ogg"]),
    ("mp3", ["audio/mpeg", "audio/mp3"]), ("mpeg", ["audio/mpeg"]), ("mpga", ["audio/mpeg"]),
    ("mp4", ["audio/mp4", "video/mp4"]), ("m4a", ["audio/mp4", "audio/x-m4a"]),
    ("wav", ["audio/wav", "audio/wave", "audio/x-wav"]), ("webm", ["audio/webm", "video/webm"])].map
    fun format => (ascii format.1, format.2.map ascii)

/-- The members that every object inherits, as far as their names have no capital letter. -/
def inheritedNames : List Bytes := [ascii "constructor", ascii "__proto__"]

def octetStream : Bytes := ascii "application/octet-stream"

/-- The format at a file's extension: `formats` is a plain object, so that a name it does not have may
    still be one it inherits, and what stands there has no `includes`. -/
def checkFormat (extension mime : Bytes) : Except Refusal Unit :=
  match formats.lookup extension with
  | some mimes =>
    require (mime = octetStream || mimes.contains mime) (invalid "unsupported audio filename/MIME pair")
  | none =>
    if inheritedNames.contains extension then require (mime = octetStream) .typeError
    else .error (invalid "unsupported audio filename/MIME pair")

def isAlphanumeric (b : UInt8) : Bool :=
  let n := b.toNat
  48 ≤ n && n ≤ 57 || 65 ≤ n && n ≤ 90 || 97 ≤ n && n ≤ 122

def isFilenameByte (b : UInt8) : Bool :=
  isAlphanumeric b || b = 32 || b = 46 || b = 95 || b = 40 || b = 41 || b = 45

def hasTwoDots : Bytes → Bool
  | [] => false
  | b :: rest => [46, 46].isPrefixOf (b :: rest) || hasTwoDots rest

/-- `/^[A-Za-z0-9][A-Za-z0-9 ._()-]{0,126}$/`, and no two dots in sequence. -/
def isSafeName (filename : Bytes) : Bool :=
  match filename with
  | [] => false
  | b :: rest => isAlphanumeric b && rest.length ≤ 126 && rest.all isFilenameByte && !hasTwoDots filename

/-- `filename.split('.').at(-1)`, in small letters. -/
def extensionOf (filename : Bytes) : Bytes := lower (filename.reverse.takeWhile (· != 46)).reverse

/-- The file of a form. -/
structure AudioFile where
  name : Bytes
  type : Bytes
  bytes : Bytes

/-- The entries so far. -/
structure Entries where
  fields : List (Bytes × Text)
  file : Option AudioFile

def fileName : Bytes := ascii "file"

/-- `maximum`, 0 for a field that is not known. -/
def fieldLimit (name : Bytes) : Nat :=
  if name = ascii "prompt" then promptLimit else if name = ascii "model" then 128
  else if name = ascii "language" then 2 else if name = ascii "response_format" then 4
  else if name = ascii "stream" then 5 else 0

/-- The body of a part with its name and its filename. -/
def acceptPart (s : Entries) (h : Headers) (name : Bytes) (filename : Option Bytes) (bytes : Bytes) :
    Except Refusal Entries :=
  if name = fileName then do
    require s.file.isNone (invalid "exactly one File is required")
    let filename ← demand filename (invalid "exactly one File is required")
    require (bytes ≠ [] && bytes.length ≤ fileLimit) tooLarge
    require (isSafeName filename) (invalid "unsafe audio filename")
    let mime := lower (h.type.getD [])
    checkFormat (extensionOf filename) mime
    return { s with file := some ⟨filename, mime, bytes⟩ }
  else do
    require (filename.isNone && h.type.isNone && !s.fields.any (·.1 = name))
      (invalid "duplicate or wrong-type multipart field")
    require (fieldLimit name ≠ 0) (unsupportedOption "unsupported transcription option")
    require (bytes.length ≤ fieldLimit name) (invalid "multipart field exceeds its byte limit")
    let value ← demand (TextDecoder.decode true bytes) (invalid "multipart field must be UTF-8")
    return { s with fields := s.fields ++ [(name, value)] }

/-! ## 5. The parts -/

def subarray (raw : Bytes) (start stop : Nat) : Bytes := (raw.take stop).drop start

def marker (boundary : Bytes) : Bytes := dashes ++ boundary

def separator (boundary : Bytes) : Bytes := crlf ++ (dashes ++ boundary)

theorem separator_ne_nil (boundary : Bytes) : separator boundary ≠ [] := List.cons_ne_nil _ _

/-- The part after a line end: the cursor after it, and what it adds. -/
def parsePart (raw boundary : Bytes) (cursor : Nat) (s : Entries) : Except Refusal (Nat × Entries) := do
  let stop ← demand (find raw headersEnd cursor (min raw.length (cursor + headersLimit + 4)))
    (invalid "multipart part headers exceed limit")
  require (stop - cursor ≤ headersLimit) (invalid "multipart part headers exceed limit")
  let text ← demand (asciiText (subarray raw cursor stop)) (invalid "part headers must be ASCII")
  let headers ← demand (partHeaders text) (invalid "unsupported or duplicate part header")
  let (name, filename) ← demand (readDisposition (headers.disposition.getD []))
    (invalid "invalid multipart disposition")
  let next ← demand (findBoundary raw (separator boundary) (separator_ne_nil boundary) (stop + 4))
    (invalid "multipart closing boundary is missing")
  let s ← acceptPart s headers name filename (subarray raw (stop + 4) next)
  return (next + (separator boundary).length, s)

/-- `while (true)`: `left` parts are still allowed. -/
def parseFrom (raw boundary : Bytes) (left cursor : Nat) (s : Entries) : Except Refusal Entries :=
  if isAt raw dashes cursor then
    let cursor := if isAt raw crlf (cursor + 2) then cursor + 4 else cursor + 2
    if cursor = raw.length then .ok s else .error (invalid "multipart epilogue is unsupported")
  else if isAt raw crlf cursor then
    match left with
    | 0 => .error (invalid "invalid multipart framing or part count")
    | left + 1 => do
      let (cursor, s) ← parsePart raw boundary (cursor + 2) s
      parseFrom raw boundary left cursor s
  else .error (invalid "invalid multipart framing or part count")

/-- A form that was taken. -/
structure Upload where
  file : AudioFile
  fields : List (Bytes × Text)

def Entries.field (fields : List (Bytes × Text)) (name : String) : Option Text := fields.lookup (ascii name)

def isLanguage (t : Text) : Bool := t.length = 2 && t.all fun u => 97 ≤ u.toNat && u.toNat ≤ 122

def complete (s : Entries) : Except Refusal Upload := do
  let file ← demand s.file (invalid "exactly one nonempty file and model are required")
  require ((Entries.field s.fields "model").any (· ≠ []))
    (invalid "exactly one nonempty file and model are required")
  require ((Entries.field s.fields "language").all isLanguage) (invalid "language must be an ISO-639-1 code")
  require ((Entries.field s.fields "response_format").all (· = Js.text "json") &&
      (Entries.field s.fields "stream").all (· = Js.text "false"))
    (unsupportedOption "only JSON nonstream transcription is supported")
  return ⟨file, s.fields⟩

def parseMultipart (raw boundary : Bytes) : Except Refusal Upload := do
  require (isAt raw (marker boundary) 0) (invalid "multipart preamble is unsupported")
  let s ← parseFrom raw boundary partsLimit (marker boundary).length ⟨[], none⟩
  complete s

end ClawRouter.Transcription
