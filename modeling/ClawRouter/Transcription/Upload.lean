/-
  Subject:   The grammar of an upload, and the multipart reader as its reader.

  * **`parseMultipart_ok`**: what the reader takes, with both ways;
  * **`multipart_exact`**: the reader is exact but where the format is inherited.
-/
import ClawRouter.Transcription.Bounded
import ClawRouter.Transcription.Grammar

namespace ClawRouter.Transcription

open Utf16
open Fallible (demand)

/-! ## 1. What a part stands for -/

/-- An entry of a form. -/
inductive Entry
  | file (f : AudioFile)
  | field (name : Bytes) (value : Text)

/-- A part that is a file or a field, with the limits of its own. -/
inductive Reads : Part → Entry → Prop
  | file {part : Part} {filename : Bytes}
      (hname : readDisposition (part.headers.disposition.getD []) = some (fileName, some filename))
      (hbody : part.body ≠ []) (hlimit : part.body.length ≤ fileLimit) (hsafe : isSafeName filename = true) :
      Reads part (.file ⟨filename, lower (part.headers.type.getD []), part.body⟩)
  | field {part : Part} {name : Bytes} {value : Text}
      (hname : readDisposition (part.headers.disposition.getD []) = some (name, none))
      (hother : name ≠ fileName) (htype : part.headers.type = none) (hknown : fieldLimit name ≠ 0)
      (hlimit : part.body.length ≤ fieldLimit name) (hvalue : TextDecoder.decode true part.body = some value) :
      Reads part (.field name value)

/-- The file's extension has a format, and the type is one of its types or says nothing. -/
def Supported (f : AudioFile) : Prop :=
  ∃ mimes, formats.lookup (extensionOf f.name) = some mimes ∧ (f.type = octetStream ∨ f.type ∈ mimes)

/-- The file's extension is the name of a member that `formats` inherits, and the type says nothing. -/
def Inherited (f : AudioFile) : Prop := extensionOf f.name ∈ inheritedNames ∧ f.type = octetStream

theorem not_supported_of_inherited {f : AudioFile} (h : Inherited f) : ¬ Supported f := by
  rintro ⟨mimes, hlookup, _⟩
  have hnone : ∀ name ∈ inheritedNames, formats.lookup name = none := by decide
  rw [hnone _ h.1] at hlookup
  cases hlookup

theorem checkFormat_ok (f : AudioFile) :
    checkFormat (extensionOf f.name) f.type = .ok () ↔ Supported f ∨ Inherited f := by
  unfold checkFormat Supported
  cases hlookup : formats.lookup (extensionOf f.name) with
  | some mimes =>
    rw [Fallible.require_ok, Bool.or_eq_true, decide_eq_true_iff, List.contains_iff_mem]
    constructor
    · exact fun h => .inl ⟨mimes, rfl, h⟩
    · rintro (⟨_, e, h⟩ | h)
      · cases e
        exact h
      · have hnone : ∀ name ∈ inheritedNames, formats.lookup name = none := by decide
        rw [hnone _ h.1] at hlookup
        cases hlookup
  | none =>
    dsimp only
    split
    · rename_i hmem
      rw [Fallible.require_ok, decide_eq_true_iff]
      constructor
      · exact fun h => .inr ⟨List.contains_iff_mem.mp hmem, h⟩
      · rintro (⟨_, e, _⟩ | h)
        · cases e
        · exact h.2
    · rename_i hmem
      constructor
      · intro h
        cases h
      · rintro (⟨_, e, _⟩ | h)
        · cases e
        · exact absurd (List.contains_iff_mem.mpr h.1) hmem

/-! ## 2. What the parts add -/

def Entry.file? : Entry → Option AudioFile
  | .file f => some f
  | .field _ _ => none

def Entry.field? : Entry → Option (Bytes × Text)
  | .file _ => none
  | .field name value => some (name, value)

def filesOf (entries : List Entry) : List AudioFile := entries.filterMap Entry.file?

def fieldsOf (entries : List Entry) : List (Bytes × Text) := entries.filterMap Entry.field?

def Entries.add (s : Entries) : Entry → Entries
  | .file f => { s with file := some f }
  | .field name value => { s with fields := s.fields ++ [(name, value)] }

/-- The first file, of a format that is found, or the first field of its name. -/
def Fits (s : Entries) : Entry → Prop
  | .file f => s.file = none ∧ (Supported f ∨ Inherited f)
  | .field name _ => name ∉ s.fields.map Prod.fst

variable {s s' : Entries}

theorem acceptPart_file {h : Headers} {filename : Option Bytes} {bytes : Bytes} :
    acceptPart s h fileName filename bytes = .ok s' ↔
      ∃ name, filename = some name ∧ s.file = none ∧ bytes ≠ [] ∧ bytes.length ≤ fileLimit ∧
        isSafeName name = true ∧ checkFormat (extensionOf name) (lower (h.type.getD [])) = .ok () ∧
          s' = { s with file := some ⟨name, lower (h.type.getD []), bytes⟩ } := by
  unfold acceptPart
  rw [if_pos rfl]
  simp only [Fallible.bind_ok, Fallible.require_ok, Fallible.demand_ok, Fallible.pure_ok, Bool.and_eq_true,
    decide_eq_true_iff, Option.isNone_iff_eq_none]
  constructor
  · rintro ⟨_, hfile, name, hname, _, ⟨hbody, hlimit⟩, _, hsafe, _, hformat, rfl⟩
    exact ⟨name, hname, hfile, hbody, hlimit, hsafe, hformat, rfl⟩
  · rintro ⟨name, hname, hfile, hbody, hlimit, hsafe, hformat, rfl⟩
    exact ⟨(), hfile, name, hname, (), ⟨hbody, hlimit⟩, (), hsafe, (), hformat, rfl⟩

theorem acceptPart_field {h : Headers} {name : Bytes} {filename : Option Bytes} {bytes : Bytes}
    (hother : name ≠ fileName) : acceptPart s h name filename bytes = .ok s' ↔
      ∃ value, filename = none ∧ h.type = none ∧ name ∉ s.fields.map Prod.fst ∧ fieldLimit name ≠ 0 ∧
        bytes.length ≤ fieldLimit name ∧ TextDecoder.decode true bytes = some value ∧
          s' = { s with fields := s.fields ++ [(name, value)] } := by
  have hseen : (s.fields.any fun x => x.1 = name) = false ↔ name ∉ s.fields.map Prod.fst := by
    rw [Bool.eq_false_iff, Ne, List.any_eq_true, not_iff_not, List.mem_map]
    simp only [decide_eq_true_iff]
  unfold acceptPart
  rw [if_neg hother]
  simp only [Fallible.bind_ok, Fallible.require_ok, Fallible.demand_ok, Fallible.pure_ok, Bool.and_eq_true,
    decide_eq_true_iff, Option.isNone_iff_eq_none, Bool.not_eq_true', hseen]
  constructor
  · rintro ⟨_, ⟨⟨hfilename, htype⟩, hfresh⟩, _, hknown, _, hlimit, value, hvalue, rfl⟩
    exact ⟨value, hfilename, htype, hfresh, hknown, hlimit, hvalue, rfl⟩
  · rintro ⟨value, hfilename, htype, hfresh, hknown, hlimit, hvalue, rfl⟩
    exact ⟨(), ⟨⟨hfilename, htype⟩, hfresh⟩, (), hknown, (), hlimit, value, hvalue, rfl⟩

theorem acceptEntry_ok {part : Part} :
    acceptEntry s part = .ok s' ↔ ∃ e, Reads part e ∧ Fits s e ∧ s' = s.add e := by
  unfold acceptEntry
  rw [Fallible.bind_ok]
  constructor
  · rintro ⟨⟨name, filename⟩, hname, h⟩
    have hname := Fallible.demand_ok.mp hname
    by_cases hfile : name = fileName
    · subst hfile
      obtain ⟨file, rfl, hfresh, hbody, hlimit, hsafe, hformat, rfl⟩ := acceptPart_file.mp h
      refine ⟨_, .file hname hbody hlimit hsafe, ⟨hfresh, ?_⟩, rfl⟩
      exact (checkFormat_ok ⟨file, lower (part.headers.type.getD []), part.body⟩).mp hformat
    · obtain ⟨value, rfl, htype, hfresh, hknown, hlimit, hvalue, rfl⟩ := (acceptPart_field hfile).mp h
      exact ⟨_, .field hname hfile htype hknown hlimit hvalue, hfresh, rfl⟩
  · rintro ⟨e, hreads, hfits, rfl⟩
    cases hreads with
    | file hname hbody hlimit hsafe =>
      refine ⟨_, Fallible.demand_ok.mpr hname, ?_⟩
      exact acceptPart_file.mpr ⟨_, rfl, hfits.1, hbody, hlimit, hsafe,
        (checkFormat_ok ⟨_, _, _⟩).mpr hfits.2, rfl⟩
    | field hname hother htype hknown hlimit hvalue =>
      refine ⟨_, Fallible.demand_ok.mpr hname, ?_⟩
      exact (acceptPart_field hother).mpr ⟨_, rfl, htype, hfits, hknown, hlimit, hvalue, rfl⟩

theorem add_names {e : Entry} (h : (s.fields.map Prod.fst).Nodup) (hfits : Fits s e) :
    ((s.add e).fields.map Prod.fst).Nodup := by
  cases e with
  | file f => exact h
  | field name value =>
    show ((s.fields ++ [(name, value)]).map Prod.fst).Nodup
    rw [List.map_append, List.nodup_append]
    refine ⟨h, List.nodup_singleton _, fun a ha b hb e => hfits ?_⟩
    have hb : b = name := List.mem_singleton.mp hb
    rw [← hb, ← e]
    exact ha

/-- Entries in sequence: each name once, one file at most, and of a format that is found. -/
structure Gathers (s : Entries) (entries : List Entry) (s' : Entries) : Prop where
  fields : s'.fields = s.fields ++ fieldsOf entries
  files : s'.file.toList = s.file.toList ++ filesOf entries
  formats : ∀ f ∈ filesOf entries, Supported f ∨ Inherited f
  names : (s'.fields.map Prod.fst).Nodup

theorem gathers_cons {e : Entry} {entries : List Entry} :
    Gathers s (e :: entries) s' ↔ Fits s e ∧ Gathers (s.add e) entries s' := by
  cases e with
  | file f =>
    constructor
    · rintro ⟨hfields, hfiles, hformats, hnames⟩
      have hnone : s.file = none := by
        cases hs : s.file with
        | none => rfl
        | some g =>
          rw [hs] at hfiles
          have hlength := congrArg List.length hfiles
          have hle : s'.file.toList.length ≤ 1 := by cases s'.file <;> simp
          simp only [filesOf, Entry.file?, List.filterMap_cons, Option.toList, List.length_append,
            List.length_cons, List.length_nil] at hlength hle
          omega
      rw [hnone] at hfiles
      refine ⟨⟨hnone, hformats f List.mem_cons_self⟩, hfields, hfiles, ?_, hnames⟩
      exact fun g hg => hformats g (List.mem_cons_of_mem _ hg)
    · rintro ⟨⟨hnone, hformat⟩, hfields, hfiles, hformats, hnames⟩
      refine ⟨hfields, ?_, fun g hg => ?_, hnames⟩
      · rw [hnone]
        exact hfiles
      · rcases List.mem_cons.mp hg with rfl | hg
        · exact hformat
        · exact hformats g hg
  | field name value =>
    have hassoc : s.fields ++ fieldsOf (.field name value :: entries) =
        (s.add (.field name value)).fields ++ fieldsOf entries := by
      show _ = (s.fields ++ [(name, value)]) ++ _
      rw [List.append_assoc]
      rfl
    constructor
    · rintro ⟨hfields, hfiles, hformats, hnames⟩
      refine ⟨fun hmem => ?_, hfields.trans hassoc, hfiles, hformats, hnames⟩
      rw [hfields, List.map_append, List.nodup_append] at hnames
      exact hnames.2.2 name hmem name List.mem_cons_self rfl
    · rintro ⟨_, hfields, hfiles, hformats, hnames⟩
      exact ⟨hfields.trans hassoc.symm, hfiles, hformats, hnames⟩

theorem acceptAll_ok {parts : List Part} (hnames : (s.fields.map Prod.fst).Nodup) :
    acceptAll s parts = .ok s' ↔ ∃ entries, List.Forall₂ Reads parts entries ∧ Gathers s entries s' := by
  induction parts generalizing s with
  | nil =>
    constructor
    · intro h
      cases h
      exact ⟨[], .nil, (List.append_nil _).symm, (List.append_nil _).symm, fun _ h => absurd h
        List.not_mem_nil, hnames⟩
    · rintro ⟨entries, hreads, hgathers⟩
      cases hreads
      obtain ⟨fields, file⟩ := s
      obtain ⟨fields', file'⟩ := s'
      have hfields : fields' = fields ++ [] := hgathers.fields
      have hfile : file'.toList = file.toList ++ [] := hgathers.files
      rw [List.append_nil] at hfields hfile
      have hsame : file' = file := by
        cases file <;> cases file' <;> simp_all
      rw [hfields, hsame]
      rfl
  | cons part parts ih =>
    unfold acceptAll
    rw [List.foldlM_cons, Fallible.bind_ok]
    constructor
    · rintro ⟨next, hentry, hrest⟩
      obtain ⟨e, hreads, hfits, rfl⟩ := acceptEntry_ok.mp hentry
      obtain ⟨entries, hmore, hgathers⟩ := (ih (add_names hnames hfits)).mp hrest
      exact ⟨e :: entries, .cons hreads hmore, gathers_cons.mpr ⟨hfits, hgathers⟩⟩
    · rintro ⟨entries, hreads, hgathers⟩
      cases hreads with
      | cons hreads hmore =>
        obtain ⟨hfits, hgathers⟩ := gathers_cons.mp hgathers
        exact ⟨_, acceptEntry_ok.mpr ⟨_, hreads, hfits, rfl⟩, (ih (add_names hnames hfits)).mpr
          ⟨_, hmore, hgathers⟩⟩

theorem acceptAll_fresh {parts : List Part} : acceptAll ⟨[], none⟩ parts = .ok s' ↔
      ∃ entries, List.Forall₂ Reads parts entries ∧ Gathers ⟨[], none⟩ entries s' :=
  acceptAll_ok (s := ⟨[], none⟩) List.nodup_nil

/-! ## 3. The uploads -/

/-- The fields that an upload must have, and the values of those that it may have. -/
structure Completed (fields : List (Bytes × Text)) : Prop where
  model : ∃ model, Entries.field fields "model" = some model ∧ model ≠ []
  language : ∀ value, Entries.field fields "language" = some value → isLanguage value = true
  format : ∀ value, Entries.field fields "response_format" = some value → value = Js.text "json"
  stream : ∀ value, Entries.field fields "stream" = some value → value = Js.text "false"

variable {upload : Upload}

theorem complete_ok :
    complete s = .ok upload ↔ s.file = some upload.file ∧ s.fields = upload.fields ∧ Completed s.fields := by
  have hany : ∀ {value : Option Text} {p : Text → Bool}, value.any p = true ↔ ∃ t, value = some t ∧
    p t = true := by
    intro value p
    cases value <;> simp
  have hall : ∀ {value : Option Text} {p : Text → Bool}, value.all p = true ↔ ∀ t, value = some t →
    p t = true := by
    intro value p
    cases value <;> simp
  unfold complete
  simp only [Fallible.bind_ok, Fallible.require_ok, Fallible.demand_ok, Fallible.pure_ok,
    Bool.and_eq_true, hany,
    hall, decide_eq_true_iff]
  constructor
  · rintro ⟨file, hfile, _, hmodel, _, hlanguage, _, ⟨hformat, hstream⟩, rfl⟩
    exact ⟨hfile, rfl, hmodel, hlanguage, hformat, hstream⟩
  · rintro ⟨hfile, hfields, hmodel, hlanguage, hformat, hstream⟩
    refine ⟨_, hfile, (), hmodel, (), hlanguage, (), ⟨hformat, hstream⟩, ?_⟩
    rw [hfields]

/-- The bytes are those of an upload: the first boundary, one to six parts that read as entries, one of
    them a file, of a format that `format` allows, and the others fields, each of a name of its own. -/
structure AcceptsAs (format : AudioFile → Prop) (boundary raw : Bytes) (upload : Upload) (rest : Bytes)
    (parts : List Part) (entries : List Entry) : Prop where
  front : raw = marker boundary ++ rest
  framed : Framed boundary rest parts
  count : 1 ≤ parts.length ∧ parts.length ≤ partsLimit
  reads : List.Forall₂ Reads parts entries
  file : filesOf entries = [upload.file]
  format : format upload.file
  fields : fieldsOf entries = upload.fields
  names : (upload.fields.map Prod.fst).Nodup
  completed : Completed upload.fields

def Accepts (format : AudioFile → Prop) (boundary raw : Bytes) (upload : Upload) : Prop :=
  ∃ rest parts entries, AcceptsAs format boundary raw upload rest parts entries

theorem marker_ne_nil (boundary : Bytes) : marker boundary ≠ [] := List.cons_ne_nil _ _

/-- **What the reader takes**, and what it makes of it. -/
theorem parseMultipart_ok (raw boundary : Bytes) (upload : Upload) : parseMultipart raw boundary = .ok upload ↔
      Accepts (fun f => Supported f ∨ Inherited f) boundary raw upload := by
  unfold parseMultipart
  rw [Fallible.bind_ok]
  constructor
  · rintro ⟨_, hfront, h⟩
    obtain ⟨rest, rfl⟩ := (isAt_iff (marker_ne_nil boundary)).mp (Fallible.require_ok.mp hfront)
    obtain ⟨s, hparts, hcomplete⟩ := Fallible.bind_ok.mp h
    obtain ⟨parts, hframed, hcount, hs⟩ := parseFrom_ok.mp hparts
    obtain ⟨entries, hreads, hfields, hfiles, hformats, hnames⟩ := acceptAll_fresh.mp hs
    obtain ⟨hfile, hupload, hcompleted⟩ := complete_ok.mp hcomplete
    have hone : filesOf entries = [upload.file] := by
      rw [hfile] at hfiles
      exact hfiles.symm
    rw [hupload] at hfields hnames hcompleted
    refine ⟨rest, parts, entries, rfl, hframed, ⟨?_, hcount⟩, hreads, hone, ?_, hfields.symm,
      hnames, hcompleted⟩
    · cases hreads with
      | nil => cases hone
      | cons _ _ => exact Nat.succ_pos _
    · refine hformats _ ?_
      rw [hone]
      exact List.mem_cons_self
  · rintro ⟨rest, parts, entries, rfl, hframed, ⟨_, hcount⟩, hreads, hone, hformat, hfields, hnames,
      hcompleted⟩
    refine ⟨(), Fallible.require_ok.mpr (isAt_here _ _ (marker_ne_nil boundary)), ?_⟩
    refine Fallible.bind_ok.mpr ⟨⟨upload.fields, some upload.file⟩, ?_, complete_ok.mpr ⟨rfl, rfl, hcompleted⟩⟩
    refine parseFrom_ok.mpr ⟨parts, hframed, hcount, acceptAll_fresh.mpr ⟨entries, hreads, ?_⟩⟩
    refine ⟨hfields.symm, hone.symm, fun f hf => ?_, hnames⟩
    rw [hone] at hf
    rw [List.mem_singleton.mp hf]
    exact hformat

/-! ## 4. Formats that are inherited -/

theorem accepts_or {boundary raw : Bytes} : Accepts (fun f => Supported f ∨ Inherited f) boundary raw upload ↔
      Accepts Supported boundary raw upload ∨ Accepts Inherited boundary raw upload := by
  constructor
  · rintro ⟨rest, parts, entries, hfront, hframed, hcount, hreads, hfile, hformat | hformat,
      hfields, hnames, hdone⟩
    · exact .inl ⟨rest, parts, entries, hfront, hframed, hcount, hreads, hfile, hformat, hfields,
        hnames, hdone⟩
    · exact .inr ⟨rest, parts, entries, hfront, hframed, hcount, hreads, hfile, hformat, hfields,
        hnames, hdone⟩
  · rintro (⟨rest, parts, entries, hfront, hframed, hcount, hreads, hfile, hformat, hfields, hnames, hdone⟩ |
      ⟨rest, parts, entries, hfront, hframed, hcount, hreads, hfile, hformat, hfields, hnames, hdone⟩)
    · exact ⟨rest, parts, entries, hfront, hframed, hcount, hreads, hfile, .inl hformat, hfields,
        hnames, hdone⟩
    · exact ⟨rest, parts, entries, hfront, hframed, hcount, hreads, hfile, .inr hformat, hfields,
        hnames, hdone⟩

theorem not_accepts_of_inherited {boundary raw : Bytes}
    (h : Accepts Inherited boundary raw upload) : ¬ Accepts Supported boundary raw upload := by
  obtain ⟨_, _, _, hinherited⟩ := h
  rintro ⟨_, _, _, hsupported⟩
  exact not_supported_of_inherited hinherited.format hsupported.format

theorem not_exact {boundary raw : Bytes} (h : Accepts Inherited boundary raw upload) :
    ¬ ∀ upload, parseMultipart raw boundary = .ok upload ↔ Accepts Supported boundary raw upload := by
  intro hexact
  have htaken := (parseMultipart_ok raw boundary upload).mpr (accepts_or.mpr (.inr h))
  exact not_accepts_of_inherited h ((hexact upload).mp htaken)

/-- **The reader is exact but for the formats that are inherited**: it takes the uploads, and only them,
    exactly for the bytes that are not such an upload. And a body is returned as it was read, where it ends
    within its bounds, and refused where it ends beyond them. -/
theorem multipart_exact (raw boundary : Bytes) :
    ((∀ upload, parseMultipart raw boundary = .ok upload ↔ Accepts Supported boundary raw upload) ↔
      ¬ ∃ upload, Accepts Inherited boundary raw upload) ∧
    ∀ (maximum status : Nat) (maximumReads : Option Nat) (chunks : List (List UInt8)) (rest : List (Read String)),
      (∀ bytes, readBounded maximum status maximumReads none (some (chunks.map .chunk ++ .done :: rest)) =
          some (.ok bytes) ↔ Within maximum maximumReads 0 0 chunks ∧ bytes = chunks.flatten) ∧
      ((∃ e, readBounded maximum status maximumReads none (some (chunks.map .chunk ++ .done :: rest)) =
          some (.error e)) ↔
        maximum < chunks.flatten.length ∨ ∃ limit ∈ maximumReads, limit < chunks.length + 1) := by
  refine ⟨⟨?_, fun hnone upload => ?_⟩, fun maximum status maximumReads chunks rest => ⟨?_, ?_⟩⟩
  · rintro hexact ⟨upload, hupload⟩
    exact not_exact hupload hexact
  · rw [parseMultipart_ok, accepts_or]
    exact or_iff_left fun h => hnone ⟨upload, h⟩
  · intro bytes
    rw [readBounded_ok]
    constructor
    · rintro ⟨chunks', rest', hsame, hwithin, rfl⟩
      rw [chunks_unique hsame]
      exact ⟨hwithin, rfl⟩
    · rintro ⟨hwithin, rfl⟩
      exact ⟨chunks, rest, rfl, hwithin, rfl⟩
  · rw [readBounded_throws, not_within]

/-! An upload with the extension `constructor`. -/

def constructorHeaders : Bytes :=
  ascii "Content-Disposition: form-data; name=\"file\"; filename=\"a.constructor\"" ++ crlf ++
    ascii "Content-Type: application/octet-stream"

def modelHeaders : Bytes := ascii "Content-Disposition: form-data; name=\"model\""

/-- `--b`, a file `a.constructor` of one byte, and a model. -/
def constructorUpload : Bytes :=
  marker (ascii "b") ++ (crlf ++ (constructorHeaders ++ (headersEnd ++ (ascii "x" ++ (separator (ascii "b") ++
    (crlf ++ (modelHeaders ++ (headersEnd ++ (ascii "m" ++ (separator (ascii "b") ++ dashes))))))))))

theorem constructor_accepted : Accepts Inherited (ascii "b") constructorUpload
    ⟨⟨ascii "a.constructor", octetStream, ascii "x"⟩, [(ascii "model", Js.text "m")]⟩ := by
  have hfile : partHeaders constructorHeaders =
      some ⟨some (ascii "form-data; name=\"file\"; filename=\"a.constructor\""), some octetStream⟩ := by
    unfold constructorHeaders octetStream
    rw [ascii_ofList, ascii_ofList, ascii_ofList, ascii_ofList]
    decide +kernel
  have hmodel : partHeaders modelHeaders = some ⟨some (ascii "form-data; name=\"model\""), none⟩ := by
    unfold modelHeaders
    rw [ascii_ofList, ascii_ofList]
    decide +kernel
  refine ⟨_, _, [.file _, .field _ _], rfl, .part ?_ ?_ hfile ?_ (.part ?_ ?_ hmodel ?_ .close), ?_,
    ?_, rfl, ?_, rfl, ?_, ?_⟩
  · decide +kernel
  · decide +kernel
  · exact (endsAtFirst_iff _ _ _).mpr (by decide +kernel)
  · decide +kernel
  · decide +kernel
  · exact (endsAtFirst_iff _ _ _).mpr (by decide +kernel)
  · decide +kernel
  · refine .cons (.file (by decide +kernel) (by decide +kernel) (by decide +kernel)
      (by decide +kernel)) (.cons (.field ?_ ?_ rfl ?_ ?_ ?_) .nil)
    all_goals decide +kernel
  · exact ⟨by decide +kernel, rfl⟩
  · decide +kernel
  · refine ⟨⟨Js.text "m", by decide +kernel, by decide +kernel⟩, ?_, ?_, ?_⟩
    all_goals
      intro value hvalue
      cases hvalue

/-- **A file that has no format is taken.** -/
theorem constructor_taken : ¬ ∀ upload, parseMultipart constructorUpload (ascii "b") = .ok upload ↔
      Accepts Supported (ascii "b") constructorUpload upload := not_exact constructor_accepted

end ClawRouter.Transcription
