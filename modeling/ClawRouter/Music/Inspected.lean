/-
  Subject:   Inspecting a music stream comes to the same as retaining it.

  * **`inspection_eq_result`**: an inspection exactly where there is a result, with the same evidence.
-/
import ClawRouter.Music.Stream

namespace ClawRouter.Music

open Utf16 Js Commands Commands.Command
open Base64 (sextet atob)
open Inspect (Token)

variable {c : MusicContext} {r i : MusicState}

/-! ## 1. How the two states stand -/

/-- The counter on all that is retained of the audio. -/
def countedAudio (s : MusicState) : Option Base64Counter :=
  Base64Counter.accept maxAudio false .fresh s.audioBase64

/-- The scan of all that is retained of the transcript. -/
def scannedTranscript (s : MusicState) : Option Bool := s.transcript.foldlM scanUnit false

/-- The state that retains, and the state that inspects, as long as both go on. -/
structure Live (r i : MusicState) : Prop where
  evidence : r.evidence = i.evidence
  audio : countedAudio r = some i.audioCounter
  transcript : scannedTranscript r = some i.transcriptHigh
  units : r.audioBase64.all isAudioUnit = true
  characters : r.evidence.audioCharacters = r.audioBase64.length

/-- What is retained has a fault that nothing added to it mends. -/
structure Spoiled (r : MusicState) : Prop where
  fault : countedAudio r = none ∨ scannedTranscript r = none
  units : r.audioBase64.all isAudioUnit = true

theorem live_fresh : Live .fresh .fresh := ⟨rfl, rfl, rfl, rfl, rfl⟩

variable {s : MusicState} {data : Text}

theorem Spoiled.audio (h : Spoiled s) (hdata : data.all isAudioUnit = true) :
    Spoiled { s with audioBase64 := s.audioBase64 ++ data } := by
  refine ⟨?_, ?_⟩
  · rcases h.fault with hfault | hfault
    · left
      unfold countedAudio at hfault ⊢
      rw [Base64Counter.accept_append, hfault]
      rfl
    · exact .inr hfault
  · rw [List.all_append, h.units, hdata]
    rfl

theorem Spoiled.transcript (h : Spoiled s) (transcript : Text) :
    Spoiled { s with transcript := s.transcript ++ transcript } := by
  refine ⟨?_, h.units⟩
  rcases h.fault with hfault | hfault
  · exact .inl hfault
  · right
    unfold scannedTranscript at hfault ⊢
    rw [List.foldlM_append, hfault]
    rfl

/-! ## 2. What keeps a fault -/

section Keeps

abbrev SpoilsMusic {α : Type} (command : Command MusicState Reason α) : Prop := Spoils Spoiled command

theorem spoils_demand (condition : Bool) (reason : Reason) : SpoilsMusic (demand condition reason) := by
  unfold demand
  split
  · exact spoils_pure _
  · exact spoils_fail _

theorem spoils_demand_bind {α : Type} {condition : Bool} {reason : Reason}
    {f : PUnit → Command MusicState Reason α} (h : condition = true → SpoilsMusic (f ⟨⟩)) :
    SpoilsMusic (demand condition reason >>= f) := by
  cases hc : condition with
  | true => exact h hc
  | false => exact spoils_fail _

theorem spoils_object (value : Option Value) : SpoilsMusic (object value) := by
  unfold object
  split
  · exact spoils_pure _
  · exact spoils_fail _

theorem spoils_evidence {f : MusicState → Evidence} :
    SpoilsMusic (update fun s => { s with evidence := f s }) :=
  spoils_update fun _ h => ⟨h.fault, h.units⟩

theorem spoils_onEvidence {α : Type} (command : Command Evidence Reason α) :
    SpoilsMusic (onEvidence command) := fun _ h => ⟨h.fault, h.units⟩

theorem spoils_member {member : Option Value} {take : Value → Command MusicState Reason PUnit}
    (h : ∀ value, SpoilsMusic (take value)) : SpoilsMusic (acceptMember member take) := by
  unfold acceptMember
  split
  · exact spoils_pure _
  · exact h _

theorem spoils_data (value : Value) : SpoilsMusic (acceptData true value) := by
  unfold acceptData
  split
  · exact spoils_fail _
  · rename_i data _
    refine spoils_query_bind fun s => spoils_demand_bind fun hpass => ?_
    have hunits : data.all isAudioUnit = true := by
      rw [Bool.and_eq_true] at hpass
      exact hpass.1
    refine spoils_evidence.bind fun _ => ?_
    rw [if_pos rfl]
    exact spoils_update fun _ h => h.audio hunits

theorem spoils_transcript (value : Value) : SpoilsMusic (acceptTranscript true value) := by
  unfold acceptTranscript
  split
  · exact spoils_fail _
  · refine spoils_query_bind fun s => spoils_evidence.bind fun _ => (spoils_demand _ _).bind fun _ => ?_
    rw [if_pos rfl]
    exact spoils_update fun _ h => h.transcript _

theorem spoils_audio (audio : Value) : SpoilsMusic (acceptAudio true audio) := by
  refine spoils_query_bind fun s => (spoils_demand _ _).bind fun _ => (spoils_object _).bind fun _ => ?_
  exact (spoils_member spoils_data).bind fun _ => spoils_member spoils_transcript

theorem spoils_delta (delta : Delta) : SpoilsMusic (acceptDelta true delta) := by
  refine (spoils_member spoils_audio).bind fun _ => ?_
  split
  · exact spoils_evidence
  · exact spoils_pure _

end Keeps

/-! ## 3. One payload -/

section Payload

abbrev CoupledMusic {α : Type} (command inspecting : Command MusicState Reason α) (r i : MusicState) : Prop :=
  Coupled Live Spoiled command inspecting r i

theorem coupled_demand_bind {α : Type} {condition : Bool} {reason : Reason}
    {f g : PUnit → Command MusicState Reason α} (h : condition = true → CoupledMusic (f ⟨⟩) (g ⟨⟩) r i) :
    CoupledMusic (demand condition reason >>= f) (demand condition reason >>= g) r i := by
  cases hc : condition with
  | true => exact h hc
  | false => exact .inl ⟨reason, r, rfl⟩

theorem coupled_object (value : Option Value) (h : Live r i) :
    CoupledMusic (object value) (object value) r i := by
  unfold object
  split
  · exact coupled_pure _ h
  · exact coupled_fail _

theorem coupled_member {member : Option Value} {take look : Value → Command MusicState Reason PUnit}
    (h : Live r i)
    (hvalue : ∀ value, CoupledMusic (take value) (look value) r i) :
    CoupledMusic (acceptMember member take) (acceptMember member look) r i := by
  unfold acceptMember
  split
  · exact coupled_pure _ h
  · exact hvalue _

theorem Live.counted (h : Live r i) (data : Text) :
    Base64Counter.accept maxAudio false .fresh (r.audioBase64 ++ data) =
      i.audioCounter.accept maxAudio false data := by
  have haudio := h.audio
  unfold countedAudio at haudio
  rw [Base64Counter.accept_append, haudio]
  rfl

theorem Live.scanned (h : Live r i) (transcript : Text) :
    (r.transcript ++ transcript).foldlM scanUnit false = transcript.foldlM scanUnit i.transcriptHigh := by
  have hscan := h.transcript
  unfold scannedTranscript at hscan
  rw [List.foldlM_append, hscan]
  rfl

theorem coupled_data (value : Value) (h : Live r i) :
    CoupledMusic (acceptData true value) (acceptData false value) r i := by
  unfold acceptData
  split
  · exact coupled_fail _
  · rename_i data _
    refine coupled_query_bind ?_
    dsimp only [id]
    rw [h.evidence]
    refine coupled_demand_bind fun hpass => coupled_update_bind ?_
    rw [if_pos rfl, if_neg Bool.false_ne_true]
    have hunits : (r.audioBase64 ++ data).all isAudioUnit = true := by
      rw [Bool.and_eq_true] at hpass
      rw [List.all_append, h.units, hpass.1]
      rfl
    have hcounted := h.counted data
    cases hcount : i.audioCounter.accept maxAudio false data with
    | none =>
      rw [hcount] at hcounted
      exact coupled_late _ ⟨.inl hcounted, hunits⟩
    | some counter =>
      rw [hcount] at hcounted
      refine coupled_update ⟨?_, hcounted, h.transcript, hunits, ?_⟩
      · rw [h.evidence]
      · rw [h.characters, List.length_append]

theorem byteLength_eq (t : Text) : byteLength true t = byteLength false t := by
  unfold byteLength
  rw [if_pos rfl, if_neg Bool.false_ne_true, utf8Length_eq]

theorem coupled_transcript (value : Value) (h : Live r i) :
    CoupledMusic (acceptTranscript true value) (acceptTranscript false value) r i := by
  unfold acceptTranscript
  split
  · exact coupled_fail _
  · rename_i transcript _
    refine coupled_query_bind ?_
    dsimp only [id]
    rw [h.evidence, byteLength_eq]
    refine coupled_update_bind (coupled_demand_bind fun _ => ?_)
    rw [if_pos rfl, if_neg Bool.false_ne_true]
    have hscanned := h.scanned transcript
    cases hscan : transcript.foldlM scanUnit i.transcriptHigh with
    | none =>
      rw [hscan] at hscanned
      exact coupled_late _ ⟨.inr hscanned, h.units⟩
    | some high =>
      rw [hscan] at hscanned
      refine coupled_update ⟨?_, h.audio, hscanned, h.units, ?_⟩
      · rw [h.evidence]
      · rw [h.characters]

theorem coupled_audio (audio : Value) (h : Live r i) :
    CoupledMusic (acceptAudio true audio) (acceptAudio false audio) r i := by
  refine coupled_query_bind ?_
  dsimp only [id]
  rw [h.evidence]
  refine coupled_demand_bind fun _ => (coupled_object _ h).bind (fun audio r' i' _ h' => ?_) fun audio => ?_
  · refine (coupled_member h' fun value => coupled_data value h').bind (fun _ r'' i'' _ h'' => ?_) fun _ => ?_
    · exact coupled_member h'' fun value => coupled_transcript value h''
    · exact spoils_member spoils_transcript
  · exact (spoils_member spoils_data).bind fun _ => spoils_member spoils_transcript

theorem coupled_delta (delta : Delta) (h : Live r i) :
    CoupledMusic (acceptDelta true delta) (acceptDelta false delta) r i := by
  refine (coupled_member h fun audio => coupled_audio audio h).bind (fun _ r' i' _ h' => ?_) fun _ => ?_
  · split
    · refine coupled_update ⟨?_, h'.audio, h'.transcript, h'.units, h'.characters⟩
      rw [h'.evidence]
    · exact coupled_pure _ h'
  · split
    · exact spoils_evidence
    · exact spoils_pure _

/-- A payload within the limits of `inspectStructure`, if it is a document at all. -/
def InLimits (c : MusicContext) (data : Text) : Prop :=
  data = text "[DONE]" ∨ inspectStructure c.tokenizer data = true ∨ c.parse data = none

theorem acceptHead_eq (h : data = text "[DONE]" ∨ inspectStructure c.tokenizer data = true) :
    acceptHead c true data = acceptHead c false data := by
  unfold acceptHead
  rw [byteLength_eq]
  by_cases hdone : data = text "[DONE]"
  · simp only [if_pos hdone]
  · simp only [if_neg hdone]
    rcases h with h | h
    · exact absurd h hdone
    · rw [h]
      rfl

theorem acceptHead_refuses (retain : Bool) (hdone : data ≠ text "[DONE]") (hparse : c.parse data = none)
    (e : Evidence) : AnswersAt (fun _ => False) (acceptHead c retain data) e := by
  refine answersAt_query_bind (AnswersAt.bind fun _ _ _ => AnswersAt.bind fun _ _ _ => ?_)
  refine AnswersAt.bind fun _ _ _ => ?_
  rw [if_neg hdone, hparse]
  refine AnswersAt.bind fun _ _ _ => AnswersAt.bind fun frame _ hframe => ?_
  cases hframe

/-- The head does not touch the count of the audio. -/
abbrev KeepsCount {α : Type} (command : Command Evidence Reason α) : Prop :=
  Keeps (fun e e' => e'.audioCharacters = e.audioCharacters) command

theorem keepsCount_bind {α β : Type} {command : Command Evidence Reason α} {f : α → Command Evidence Reason β}
    (hc : KeepsCount command) (hf : ∀ a, KeepsCount (f a)) : KeepsCount (command >>= f) := fun e =>
  KeepsAt.bind (fun _ _ _ h h' => h'.trans h) (hc e) fun a e' _ => hf a e'

theorem keepsCount_query {α β : Type} {g : Evidence → α} {f : α → Command Evidence Reason β}
    (hf : ∀ a, KeepsCount (f a)) : KeepsCount (query g >>= f) := fun e => hf (g e) e

theorem keepsCount_fail {α : Type} (reason : Reason) : KeepsCount (fail reason : Command Evidence Reason α) :=
  fun _ => rfl

theorem keepsCount_pure {α : Type} (a : α) : KeepsCount (pure a : Command Evidence Reason α) := fun _ => rfl

theorem keepsCount_demand (condition : Bool) (reason : Reason) : KeepsCount (demand condition reason) := by
  unfold demand
  split
  · exact keepsCount_pure _
  · exact keepsCount_fail _

theorem keepsCount_object (value : Option Value) : KeepsCount (object value) := by
  unfold object
  split
  · exact keepsCount_pure _
  · exact keepsCount_fail _

theorem keepsCount_identity (frame : Members) : KeepsCount (acceptIdentity frame) := by
  unfold acceptIdentity
  split
  · exact keepsCount_pure _
  · refine keepsCount_query fun e => ?_
    split
    · exact keepsCount_fail _
    · exact keepsCount_bind (keepsCount_demand _ _) fun _ _ => rfl

theorem keepsCount_usage (frame : Members) : KeepsCount (acceptUsage c frame) := by
  unfold acceptUsage
  split
  · exact keepsCount_pure _
  · refine keepsCount_bind (keepsCount_object _) fun usage => ?_
    exact keepsCount_bind (keepsCount_demand _ _) fun _ _ => rfl

theorem keepsCount_delta (frame : Members) : KeepsCount (readDelta frame) := by
  unfold readDelta
  split
  · exact keepsCount_bind (keepsCount_demand _ _) fun _ => keepsCount_pure _
  · refine keepsCount_bind (keepsCount_object _) fun choice => ?_
    refine keepsCount_bind (keepsCount_demand _ _) fun _ =>
      keepsCount_bind (keepsCount_object _) fun delta => ?_
    exact keepsCount_bind (keepsCount_demand _ _) fun _ => keepsCount_pure _
  · exact keepsCount_fail _

theorem keepsCount_head (retain : Bool) (data : Text) : KeepsCount (acceptHead c retain data) := by
  refine keepsCount_query fun e => keepsCount_bind (keepsCount_demand _ _) fun _ => ?_
  refine keepsCount_bind (fun _ => rfl) fun _ => keepsCount_bind (keepsCount_demand _ _) fun _ => ?_
  split
  · exact keepsCount_bind (fun _ => rfl) fun _ => keepsCount_pure _
  · refine keepsCount_bind (keepsCount_demand _ _) fun _ =>
      keepsCount_bind (keepsCount_object _) fun frame => ?_
    refine keepsCount_bind (keepsCount_demand _ _) fun _ => keepsCount_bind (keepsCount_identity _) fun _ => ?_
    exact keepsCount_bind (keepsCount_usage _) fun _ => keepsCount_delta _

theorem coupled_onEvidence {α : Type} {command : Command Evidence Reason α} (hkeeps : KeepsCount command)
    (h : Live r i) : CoupledMusic (onEvidence command) (onEvidence command) r i := by
  have hcount : (command i.evidence).2.audioCharacters = i.evidence.audioCharacters := hkeeps i.evidence
  unfold CoupledMusic Coupled onEvidence
  rw [h.evidence]
  cases hrun : (command i.evidence).1 with
  | ok a =>
    refine ⟨_, rfl, rfl, h.audio, h.transcript, h.units, ?_⟩
    rw [hcount, ← h.evidence, h.characters]
  | error reason => exact .inl ⟨reason, _, rfl⟩

theorem coupled_head (hdata : InLimits c data) (h : Live r i) :
    CoupledMusic (onEvidence (acceptHead c true data)) (onEvidence (acceptHead c false data)) r i := by
  by_cases heq : data = text "[DONE]" ∨ inspectStructure c.tokenizer data = true
  · rw [acceptHead_eq heq]
    exact coupled_onEvidence (keepsCount_head false data) h
  · obtain ⟨hdone, hstructure⟩ := not_or.mp heq
    have hparse : c.parse data = none := by
      rcases hdata with hdata | hdata | hdata
      · exact absurd hdata hdone
      · exact absurd hdata hstructure
      · exact hdata
    have hretains := acceptHead_refuses true hdone hparse r.evidence
    have hinspects := acceptHead_refuses false hdone hparse i.evidence
    unfold CoupledMusic Coupled onEvidence
    cases hi : acceptHead c false data i.evidence with
    | mk answer e =>
      cases answer with
      | ok delta => exact (hinspects delta e hi).elim
      | error reason =>
        cases hr : acceptHead c true data r.evidence with
        | mk answer' e' =>
          cases answer' with
          | ok delta => exact (hretains delta e' hr).elim
          | error reason' => exact .inl ⟨reason', _, rfl⟩

theorem coupled_payload (hdata : InLimits c data) (h : Live r i) :
    CoupledMusic (acceptPayload c true data) (acceptPayload c false data) r i := by
  refine (coupled_head hdata h).bind (fun delta r' i' _ h' => ?_) fun delta => ?_
  · split
    · exact coupled_pure _ h'
    · exact coupled_delta _ h'
  · split
    · exact spoils_pure _
    · exact spoils_delta _

theorem spoils_payload (data : Text) : SpoilsMusic (acceptPayload c true data) := by
  refine (spoils_onEvidence _).bind fun delta => ?_
  split
  · exact spoils_pure _
  · exact spoils_delta _

end Payload

/-! ## 4. All payloads -/

section Run

/-- A state that nothing leads out of: it has failed, or it is spoiled. -/
def Lost (r : MusicState) : Prop := r.evidence.failed = true ∨ Spoiled r

def Related (r i : MusicState) : Prop := Live r i ∨ i.evidence.failed = true ∧ Lost r

theorem accept_ok {retain : Bool} {s' : MusicState}
    (h : acceptPayload c retain data s = (.ok ⟨⟩, s')) : (accept c retain data s).2 = s' := by
  unfold accept attempt
  rw [h]

theorem accept_error {retain : Bool} {s' : MusicState} {reason : Reason}
    (h : acceptPayload c retain data s = (.error reason, s')) :
    (accept c retain data s).2 = { s' with evidence := { s'.evidence with failed := true } } := by
  unfold accept attempt
  rw [h]
  rfl

theorem acceptHead_failed (retain : Bool) (data : Text) {e : Evidence} (h : e.failed = true) :
    acceptHead c retain data e = (.error "state", e) := by
  unfold acceptHead
  rw [query_bind]
  dsimp only [id]
  rw [h]
  rfl

theorem accept_failed (retain : Bool) (data : Text) (h : s.evidence.failed = true) :
    (accept c retain data s).2.evidence.failed = true := by
  have hrefused : acceptPayload c retain data s = (.error "state", s) := by
    show andThen (onEvidence (acceptHead c retain data)) _ s = _
    unfold andThen onEvidence
    rw [acceptHead_failed retain data h]
  rw [accept_error hrefused]

theorem accept_spoiled (data : Text) (h : Spoiled s) : Spoiled (accept c true data s).2 := by
  refine keeps_attempt (fun _ _ _ h h' hs => h' (h hs)) (spoils_payload data) (fun _ => ?_) s h
  exact fun _ h => ⟨h.fault, h.units⟩

theorem accept_related (hdata : InLimits c data) (h : Related r i) :
    Related (accept c true data r).2 (accept c false data i).2 := by
  rcases h with hlive | ⟨hfailed, hlost⟩
  · have hcoupled := coupled_payload hdata hlive
    unfold CoupledMusic Coupled at hcoupled
    cases hi : acceptPayload c false data i with
    | mk answer i' =>
      rw [hi] at hcoupled
      cases answer with
      | ok _ =>
        obtain ⟨r', hr, hlive'⟩ := hcoupled
        rw [accept_ok hi, accept_ok hr]
        exact .inl hlive'
      | error reason =>
        right
        refine ⟨by rw [accept_error hi], ?_⟩
        rcases hcoupled with ⟨reason', r', hr⟩ | hspoiled
        · left
          rw [accept_error hr]
        · cases hr : acceptPayload c true data r with
          | mk answer' r' =>
            rw [hr] at hspoiled
            cases answer' with
            | ok _ =>
              rw [accept_ok hr]
              exact .inr hspoiled
            | error reason' =>
              left
              rw [accept_error hr]
  · refine .inr ⟨accept_failed false data hfailed, ?_⟩
    rcases hlost with hlost | hlost
    · exact .inl (accept_failed true data hlost)
    · exact .inr (accept_spoiled data hlost)

theorem related_acceptAll {payloads : List Text} (h : ∀ data ∈ payloads, InLimits c data) :
    Related (acceptAll c true payloads) (acceptAll c false payloads) := by
  suffices hrun : ∀ r i, Related r i → Related (payloads.foldl (fun s data => (accept c true data s).2) r)
      (payloads.foldl (fun s data => (accept c false data s).2) i) from hrun _ _ (.inl live_fresh)
  induction payloads with
  | nil => exact fun _ _ h => h
  | cons data payloads ih =>
    intro r i hrelated
    rw [List.foldl_cons, List.foldl_cons]
    refine ih (fun d hd => h d (List.mem_cons_of_mem _ hd)) _ _ ?_
    exact accept_related (h data List.mem_cons_self) hrelated

end Run

/-! ## 5. The end -/

section End

theorem scan_iff (t : Text) : t.foldlM scanUnit false = some false ↔ (points t).any isLone = false := by
  induction t using points.induct with
  | case1 => exact ⟨fun _ => rfl, fun _ => rfl⟩
  | case2 u =>
    rw [points, List.foldlM_cons, List.any_cons]
    unfold scanUnit isLone
    cases hlead : isLead u <;> cases htrail : isTrail u <;> simp [hlead, htrail]
  | case3 u v rest hpair ih =>
    rw [points, dif_pos hpair, List.any_cons, List.foldlM_cons]
    rw [Bool.and_eq_true] at hpair
    have hu : scanUnit false u = some true := by
      unfold scanUnit
      rw [if_neg Bool.false_ne_true, if_pos hpair.1]
    have hv : scanUnit true v = some false := by
      unfold scanUnit
      rw [if_pos rfl, if_pos hpair.2]
    rw [hu]
    show (v :: rest).foldlM scanUnit true = _ ↔ _
    rw [List.foldlM_cons, hv]
    exact ih
  | case4 u v rest hpair ih =>
    rw [points, dif_neg hpair, List.any_cons, List.foldlM_cons]
    cases hlead : isLead u with
    | true =>
      have htrail : isTrail v = false := by
        rw [hlead, Bool.true_and] at hpair
        exact Bool.eq_false_iff.mpr hpair
      have hu : scanUnit false u = some true := by
        unfold scanUnit
        rw [if_neg Bool.false_ne_true, if_pos hlead]
      have hv : scanUnit true v = none := by
        unfold scanUnit
        rw [if_pos rfl, if_neg (Bool.eq_false_iff.mp htrail)]
      rw [hu]
      show (v :: rest).foldlM scanUnit true = _ ↔ _
      rw [List.foldlM_cons, hv]
      simp [isLone, hlead]
    | false =>
      cases htrail : isTrail u with
      | true =>
        have hu : scanUnit false u = none := by
          unfold scanUnit
          rw [hlead, htrail]
          rfl
        rw [hu]
        simp [isLone, htrail]
      | false =>
        have hu : scanUnit false u = some false := by
          unfold scanUnit
          rw [hlead, htrail]
          rfl
        rw [hu]
        simp only [isLone, hlead, htrail, Bool.or_self, Bool.false_or]
        exact ih

theorem not_urlOnly {u : UInt16} (h : isAudioUnit u = true) : urlOnly u = false := by
  refine Bool.eq_false_iff.mpr fun hurl => ?_
  unfold urlOnly at hurl
  rw [Bool.or_eq_true, decide_eq_true_iff, decide_eq_true_iff] at hurl
  rcases hurl with rfl | rfl
  · exact absurd h (by decide)
  · exact absurd h (by decide)

theorem counted_result (h : s.audioBase64.all isAudioUnit = true) :
    (countedAudio s).bind (Base64Counter.result maxAudio) =
      (canonicalMediaBase64 s.audioBase64 maxAudio).map (·.decodedBytes) := by
  have hany : ¬(s.audioBase64.any urlOnly = true) := by
    rw [List.any_eq_true]
    rintro ⟨u, hu, hurl⟩
    rw [not_urlOnly (List.all_eq_true.mp h u hu)] at hurl
    cases hurl
  unfold countedAudio
  rw [counter_size, mediaSize_standard, if_neg hany, canonical_size]

theorem result_lost (h : Lost s) (observation : Observation) : result c s ≠ .ok observation := by
  intro hresult
  unfold result at hresult
  split at hresult
  · cases hresult
  · rename_i hgoes
    split at hresult
    · cases hresult
    · rename_i hlone
      rcases h with hfailed | ⟨hcount | hscan, hunits⟩
      · rw [hfailed] at hgoes
        exact hgoes rfl
      · have hnone := counted_result hunits
        rw [hcount] at hnone
        rw [Option.map_eq_none_iff.mp hnone.symm] at hresult
        cases hresult
      · have hsome := (scan_iff s.transcript).mpr (Bool.eq_false_iff.mpr hlone)
        unfold scannedTranscript at hscan
        rw [hscan] at hsome
        cases hsome

/-- The evidence of an inspection, beside what is retained. -/
structure SameFinding (r : MusicState) (observation : Observation) (inspected : Inspection) : Prop where
  audio : inspected.audioBytes = observation.audio.length
  transcript : inspected.transcriptBytes = r.evidence.transcriptBytes
  format : inspected.format = observation.format
  usage : inspected.usage = observation.usage
  responseId : inspected.responseId = observation.responseId

theorem live_end (h : Live r i) :
    (∃ observation inspected, result c r = .ok observation ∧ inspection c i = .ok inspected ∧
        SameFinding r observation inspected) ∨
      (∃ reason reason', result c r = .error reason ∧ inspection c i = .error reason') := by
  obtain ⟨hevidence, haudio, htranscript, hunits, hcharacters⟩ := h
  have hempty : r.audioBase64 = [] ↔ i.evidence.audioCharacters = 0 := by
    rw [← hevidence, hcharacters, List.length_eq_zero_iff]
  have hlone : (points r.transcript).any isLone = i.transcriptHigh := by
    have hscan := scan_iff r.transcript
    unfold scannedTranscript at htranscript
    rw [htranscript] at hscan
    cases hhigh : i.transcriptHigh with
    | false =>
      rw [hhigh] at hscan
      exact hscan.mp rfl
    | true =>
      rw [hhigh] at hscan
      refine (Bool.not_eq_false _).mp fun hnone => ?_
      cases hscan.mpr hnone
  have hsize := counted_result hunits
  rw [haudio, Option.bind_some] at hsize
  unfold result inspection
  rw [hevidence, hlone]
  simp only [hempty]
  split
  · exact .inr ⟨_, _, rfl, rfl⟩
  · split
    · exact .inr ⟨_, _, rfl, rfl⟩
    · cases hcanonical : canonicalMediaBase64 r.audioBase64 maxAudio with
      | none =>
        rw [hcanonical] at hsize
        rw [show i.audioCounter.result maxAudio = none from hsize]
        exact .inr ⟨_, _, rfl, rfl⟩
      | some encoded =>
        rw [hcanonical] at hsize
        obtain ⟨audio, hread, hlength⟩ := canonical_decodes hcanonical
        rw [show i.audioCounter.result maxAudio = some encoded.decodedBytes from hsize]
        dsimp only
        rw [hread]
        refine .inl ⟨_, _, rfl, rfl, hlength.symm, ?_, rfl, rfl, rfl⟩
        rw [hevidence]

/-- **Inspecting a stream is retaining it.** An inspection comes exactly where a result does, and with the
    same evidence; and the counter, however a text is cut, accepts what the check on the whole accepts. -/
theorem inspection_eq_result (c : MusicContext) (payloads : List Text)
    (h : ∀ data ∈ payloads, InLimits c data) :
    (∀ observation, result c (acceptAll c true payloads) = .ok observation →
      ∃ inspected, inspection c (acceptAll c false payloads) = .ok inspected ∧
        SameFinding (acceptAll c true payloads) observation inspected) ∧
    (∀ inspected, inspection c (acceptAll c false payloads) = .ok inspected →
      ∃ observation, result c (acceptAll c true payloads) = .ok observation ∧
        SameFinding (acceptAll c true payloads) observation inspected) ∧
    ∀ (limit : Nat) (urlSafe : Bool) (parts : List Text),
      (parts.foldlM (Base64Counter.accept limit urlSafe) .fresh).bind (Base64Counter.result limit) =
        if !urlSafe && parts.flatten.any urlOnly then none
        else (canonicalMediaBase64 parts.flatten limit).map (·.decodedBytes) := by
  have hrelated := related_acceptAll h
  refine ⟨fun observation hresult => ?_, fun inspected hinspection => ?_, counter_eq_canonical⟩
  · rcases hrelated with hlive | ⟨_, hlost⟩
    · rcases live_end (c := c) hlive with ⟨o, inspected, ho, hinspected, hsame⟩ | ⟨reason, _, herror, _⟩
      · rw [ho] at hresult
        cases hresult
        exact ⟨inspected, hinspected, hsame⟩
      · rw [herror] at hresult
        cases hresult
    · exact absurd hresult (result_lost hlost observation)
  · rcases hrelated with hlive | ⟨hfailed, _⟩
    · rcases live_end (c := c) hlive with ⟨observation, j, ho, hinspected, hsame⟩ | ⟨_, reason, _, herror⟩
      · rw [hinspected] at hinspection
        cases hinspection
        exact ⟨observation, ho, hsame⟩
      · rw [herror] at hinspection
        cases hinspection
    · unfold inspection at hinspection
      rw [hfailed] at hinspection
      cases hinspection

end End

section Halves

def piece (data : String) : Text :=
  text "\x7b\"choices\":[\x7b\"delta\":\x7b\"audio\":\x7b\"data\":\"" ++ text data ++ text "\"\x7d\x7d]\x7d"

def pieceValue (data : String) : Value :=
  .obj [(text "choices", .arr [.obj [(text "delta", .obj
    [(text "audio", .obj [(text "data", .str (text data))])])]])]

def keyTokens (name : String) : List Token := [.startKey, .stringChunk (text name), .endKey]

def pieceTokens (data : String) : List Token :=
  .startObject :: keyTokens "choices" ++ [.startArray, .startObject] ++ keyTokens "delta" ++ .startObject ::
    keyTokens "audio" ++ .startObject :: keyTokens "data" ++
      [.startString, .stringChunk (text data), .endString, .endObject, .endObject, .endObject,
        .endArray, .endObject]

def halves : MusicContext where
  parse t :=
  ["QU", "JD"].findSome? fun data => if t = piece data then some (pieceValue data) else none
  stringify _ := []
  tokenizer := ⟨Unit, (), fun _ input =>
    match input with
    | none => some ((), [])
    | some t => ["QU", "JD"].findSome? fun data => if t = piece data then some ((), pieceTokens data) else none⟩
  model := text "google/lyria-3-pro-preview"
  format := .mp3

/-- A quartet cut in two. -/
theorem halves_inspected : ∃ inspected,
    inspection halves (acceptAll halves false [piece "QU", piece "JD", text "[DONE]"]) = .ok inspected ∧
      inspected.audioBytes = 3 := by
  have hlimits : ∀ data ∈ [piece "QU", piece "JD", text "[DONE]"], InLimits halves data := by
    intro data hdata
    simp only [List.mem_cons, List.not_mem_nil, or_false] at hdata
    rcases hdata with rfl | rfl | rfl
    · exact .inr (.inl (by decide +kernel))
    · exact .inr (.inl (by decide +kernel))
    · exact .inl rfl
  have hresult : ∃ transcript usage responseId,
      result halves (acceptAll halves true [piece "QU", piece "JD", text "[DONE]"]) =
        .ok ⟨[65, 66, 67], transcript, .mp3, usage, responseId⟩ := ⟨[], none, none, by rfl⟩
  obtain ⟨transcript, usage, responseId, hresult⟩ := hresult
  obtain ⟨inspected, hinspected, hsame⟩ := (inspection_eq_result halves _ hlimits).1 _ hresult
  exact ⟨inspected, hinspected, hsame.audio⟩

end Halves

end ClawRouter.Music
