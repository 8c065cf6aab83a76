/-
# The answer in the stream

An agent writes records, one a line, and other programs write between its lines.  What is read of
the output are its records, in their order, so lines that are no records do not count, wherever
they stand.  A record in an envelope counts as the record that is inside, as the transcript sees
no more of it than the texts in its fields.

* `events_append`: the records of an output that is put together at a line feed.
* `events_resultLine`: the result is read back.
* `isEnvelopeOf_envelope`: the text of a line between the ends of an envelope is an envelope.
* `Transcript.take_same`: equal values leave the same transcript.
* `answer_survives_stream`: the answer is found amid other lines, and in envelopes.
-/
import Foreman.Agent.Stream
import Foreman.Proofs.Json.Locality
import Foreman.Proofs.Text.Lines

namespace Foreman

/-! ## 1. Equal values

Values that differ in what no reader of a transcript looks at. -/

namespace Json

/-- The values are equal but for the order of fields, fields that are overwritten and the spelling
of numbers. -/
inductive Same : Json → Json → Prop where
  | refl (j : Json) : Same j j
  | decimal {d d' : Decimal} : d.toFinite? = d'.toFinite? → Same (.decimal d) (.decimal d')
  | list {items items' : List Json} : items.length = items'.length →
      (∀ (i : Nat) j j', items[i]? = some j → items'[i]? = some j' → Same j j') →
      Same (.list items) (.list items')
  | record {fields fields' : List (String × Json)} :
      (∀ key, (lastField? key fields).isSome = (lastField? key fields').isSome) →
      (∀ key j j', lastField? key fields = some j → lastField? key fields' = some j' →
        Same j j') →
      Same (.record fields) (.record fields')

variable {j j' : Json}

/-- Equal values have equal fields. -/
theorem Same.get? (h : Same j j') (key : String) :
    (j.get? key = none ∧ j'.get? key = none) ∨
      ∃ v v', j.get? key = some v ∧ j'.get? key = some v' ∧ Same v v' := by
  cases h with
  | refl =>
    cases hkey : j.get? key with
    | none => exact .inl ⟨rfl, rfl⟩
    | some v => exact .inr ⟨v, v, rfl, rfl, .refl v⟩
  | decimal => exact .inl ⟨rfl, rfl⟩
  | list => exact .inl ⟨rfl, rfl⟩
  | @record fields fields' hkeys hvalues =>
    have hkey := hkeys key
    cases hv : lastField? key fields with
    | none =>
      rw [hv] at hkey
      have hnone : lastField? key fields' = none := by simpa using hkey.symm
      exact .inl ⟨hv, hnone⟩
    | some v =>
      rw [hv] at hkey
      obtain ⟨v', hv'⟩ := Option.isSome_iff_exists.mp hkey.symm
      exact .inr ⟨v, v', hv, hv', hvalues key v v' hv hv'⟩

theorem Same.text? (h : Same j j') (key : String) : j.text? key = j'.text? key := by
  unfold Json.text?
  rcases h.get? key with ⟨hv, hv'⟩ | ⟨v, v', hv, hv', hsame⟩
  · rw [hv, hv']
  · rw [hv, hv']
    cases hsame <;> rfl

end Json

namespace Agent

open Json (Same)

variable {line wrapped stdout : String} {e e' : Json}

theorem deltaText?_same (h : Same e e') : deltaText? e = deltaText? e' := by
  unfold deltaText?
  rcases h.get? "delta" with ⟨hv, hv'⟩ | ⟨v, v', hv, hv', hsame⟩
  · rw [hv, hv']
  · rw [hv, hv']
    simp only [hsame.text?]

theorem messageItem?_same (h : Same e e') : messageItem? e = messageItem? e' := by
  unfold messageItem?
  rcases h.get? "item" with ⟨hv, hv'⟩ | ⟨v, v', hv, hv', hsame⟩
  · rw [hv, hv']
  · rw [hv, hv']
    rcases hsame.get? "type" with ⟨hk, hk'⟩ | ⟨k, k', hk, hk', hkind⟩
    · simp only [hk, hk', hsame.text?]
    · simp only [hk, hk', hsame.text?]
      cases hkind <;> rfl

/-- **Equal events leave the same transcript.** -/
theorem Transcript.take_same (t : Transcript) (h : Same e e') : t.take e = t.take e' := by
  unfold Transcript.take
  rw [h.text? "type", h.text? "result", deltaText?_same h, messageItem?_same h]

/-! ## 2. The records of an output

Line by line. -/

/-- The record that a trimmed line is. -/
def recordOf? (line : String) : Option Json :=
  if Text.startsWith line "\x7b" then
    match Json.read? line with
    | some j => if j.isWhole then some j else none
    | none => none
  else none

theorem events_eq (stdout : String) :
    events stdout = (Text.split stdout '\n').filterMap eventOfLine? :=
  Text.filterMap_lines (f := recordOf?) rfl stdout

/-- **An output that is put together at a line feed** has the records of both parts. -/
theorem events_append (a b : String) : events (a ++ "\n" ++ b) = events a ++ events b := by
  rw [events_eq, events_eq, events_eq, show "\n" = String.singleton '\n' from rfl,
    Text.split_append, List.filterMap_append]

theorem events_joinWith : ∀ pieces : List String,
    events (Text.joinWith "\n" pieces) = pieces.flatMap events
  | [] => rfl
  | [s] => (List.append_nil _).symm
  | s :: t :: rest => by
    rw [List.flatMap_cons, ← events_joinWith (t :: rest), ← events_append]
    rfl

theorem events_line (h : '\n' ∉ line.toList) : events line = (eventOfLine? line).toList := by
  rw [events_eq, Text.split_of_notMem h, List.filterMap_cons]
  cases eventOfLine? line <;> rfl

theorem events_pieces (stdout : String) :
    (Text.split stdout '\n').flatMap events = events stdout := by
  rw [← events_joinWith]
  exact congrArg events (Text.joinWith_split stdout '\n')

/-! ## 3. Lines that are no records

A line that does not start with a brace, or is no JSON. -/

/-- The text is one whole value. -/
def IsJson (text : String) : Prop := ∃ j, Json.read? text = some j ∧ j.isWhole = true

/-- A line that begins with no brace, or is no value. -/
def IsNoise (line : String) : Prop :=
  '\n' ∉ line.toList ∧
    (Text.startsWith (Text.trim line) "\x7b" = false ∨ ¬ IsJson (Text.trim line))

theorem eventOfLine?_eq_some_iff : eventOfLine? line = some e ↔
    Text.startsWith (Text.trim line) "\x7b" = true ∧ Json.read? (Text.trim line) = some e ∧
      e.isWhole = true := by
  unfold eventOfLine?
  dsimp only
  split
  · rename_i hbrace
    simp only [hbrace, true_and]
    cases Json.read? (Text.trim line) with
    | none => simp
    | some j =>
      by_cases hwhole : j.isWhole = true
      · simp only [hwhole, if_true, Option.some.injEq]
        exact ⟨fun h => ⟨h, h ▸ hwhole⟩, And.left⟩
      · simp only [hwhole, Bool.false_eq_true, if_false, Option.some.injEq]
        exact ⟨nofun, fun ⟨h, hwhole'⟩ => absurd (h ▸ hwhole') hwhole⟩
  · rename_i hbrace
    simp [hbrace]

theorem isNoise_iff : IsNoise line ↔ '\n' ∉ line.toList ∧ eventOfLine? line = none := by
  rw [IsNoise, Option.eq_none_iff_forall_ne_some, and_congr_right_iff]
  simp only [ne_eq, eventOfLine?_eq_some_iff, IsJson, not_and, not_exists]
  intro
  constructor
  · rintro (hbrace | hjson) e hbrace' hread
    · rw [hbrace'] at hbrace
      cases hbrace
    · exact hjson e hread
  · intro h
    by_cases hbrace : Text.startsWith (Text.trim line) "\x7b" = true
    · exact .inr fun e => h e hbrace
    · exact .inl (Bool.eq_false_iff.mpr hbrace)

instance (line : String) : Decidable (IsNoise line) :=
  decidable_of_iff ('\n' ∉ line.toList ∧ (eventOfLine? line).isNone = true)
    (by rw [isNoise_iff, Option.isNone_iff_eq_none])

/-- **Noise has no records.** -/
theorem events_of_isNoise (h : IsNoise line) : events line = [] := by
  obtain ⟨hline, hnone⟩ := isNoise_iff.mp h
  rw [events_line hline, hnone]
  rfl

/-- The lines with noise between them, before them and behind them. -/
inductive Interspersed : List String → List String → Prop where
  | nil : Interspersed [] []
  | keep (line : String) {lines noisy : List String} : Interspersed lines noisy →
      Interspersed (line :: lines) (line :: noisy)
  | noise {line : String} {lines noisy : List String} : IsNoise line →
      Interspersed lines noisy → Interspersed lines (line :: noisy)

theorem flatMap_events_interspersed {lines noisy : List String} (h : Interspersed lines noisy) :
    noisy.flatMap events = lines.flatMap events := by
  induction h with
  | nil => rfl
  | keep line _ ih => rw [List.flatMap_cons, List.flatMap_cons, ih]
  | noise hnoise _ ih => rw [List.flatMap_cons, events_of_isNoise hnoise, List.nil_append, ih]

/-! ## 4. The line of a result

What an agent writes last. -/

/-- A record between its braces is found on its line. -/
theorem eventOfLine?_braced {cs : List Char}
    (hread : Json.readChars? ('\x7b' :: cs ++ ['\x7d']) = some e) (hwhole : e.isWhole = true) :
    eventOfLine? (String.ofList ('\x7b' :: cs ++ ['\x7d'])) = some e := by
  have htrim : Text.trim (String.ofList ('\x7b' :: cs ++ ['\x7d'])) =
      String.ofList ('\x7b' :: cs ++ ['\x7d']) := by
    have htrimmed : Text.IsTrimmed ('\x7b' :: cs ++ ['\x7d']) := by
      rw [Text.IsTrimmed, List.getLast?_concat]
      exact ⟨by simp; decide, by simp; decide⟩
    rw [Text.trim, String.toList_ofList, Text.trimChars_eq_self_iff.mpr htrimmed]
  rw [eventOfLine?_eq_some_iff, htrim, Json.read?, String.toList_ofList]
  refine ⟨?_, hread, hwhole⟩
  rw [Text.startsWith, Text.startsWithChars_iff]
  exact ⟨cs ++ ['\x7d'], String.toList_ofList.symm⟩

/-- The record with a result. -/
def resultRecord (text session : String) : Json :=
  .record (Json.textFields [("result", text), ("session_id", session), ("type", "result")])

theorem compactFields_end : ∀ fields : List (String × Json),
    ∃ cs, Json.compactFields fields = cs ++ ['\x7d']
  | [] => ⟨[], rfl⟩
  | [(k, j)] => ⟨Json.quoted k ++ ':' :: j.compactChars, by simp [Json.compactFields]⟩
  | (k, j) :: e :: fields => by
    obtain ⟨cs, hcs⟩ := compactFields_end (e :: fields)
    exact ⟨Json.quoted k ++ ':' :: j.compactChars ++ ',' :: cs, by simp [Json.compactFields, hcs]⟩

/-- **The result is read back**, and nothing else is. -/
theorem events_resultLine (text session : String) :
    events (resultLine text session) = [resultRecord text session] := by
  have hline : resultLine text session =
      (resultRecord text session).compact ++ "\n" ++ "" := (String.append_empty).symm
  have hread : Json.read? (resultRecord text session).compact = some (resultRecord text session) :=
    Json.read?_compact_texts _ _
  have hfeed : '\n' ∉ (resultRecord text session).compact.toList := by
    rw [Json.compact, String.toList_ofList, resultRecord, Json.compactChars, List.mem_cons, not_or]
    exact ⟨by decide, Json.lineFeed_notMem_compactFields _⟩
  have hwhole : (resultRecord text session).isWhole = true := by
    simp [Json.isWhole, resultRecord, Json.textFields, Json.depth, Json.depthFields, Json.isSound,
      Json.soundFields, Json.depthLimit]
  have hrecord : eventOfLine? (resultRecord text session).compact =
      some (resultRecord text session) := by
    obtain ⟨cs, hcs⟩ := compactFields_end
      (Json.textFields [("result", text), ("session_id", session), ("type", "result")])
    rw [Json.read?, Json.compact, String.toList_ofList] at hread
    rw [Json.compact]
    have hchars : (resultRecord text session).compactChars = '\x7b' :: cs ++ ['\x7d'] := by
      rw [resultRecord, Json.compactChars, hcs, List.cons_append]
    rw [hchars] at hread ⊢
    exact eventOfLine?_braced hread hwhole
  rw [hline, events_append, events_line hfeed, hrecord]
  rfl

/-- What the record with a result tells under a key. -/
def told (text session key : String) : String :=
  if key = "result" then text
  else if key = "session_id" then session
  else if key = "type" then "result"
  else ""

theorem sessionOf?_resultRecord (text session : String) (keys : List String) :
    sessionOf? keys (resultRecord text session) =
      (keys.find? fun key => told text session key ≠ "").map (told text session) := by
  have htold : ∀ key, ((resultRecord text session).text? key).getD "" = told text session key := by
    intro key
    simp only [Json.text?, resultRecord, Json.get?, Json.textFields, List.map_cons, List.map_nil,
      Json.lastField?, told]
    by_cases hresult : key = "result"
    · subst hresult
      simp
    · by_cases hsession : key = "session_id"
      · subst hsession
        simp
      · by_cases htype : key = "type"
        · subst htype
          simp
        · simp [hresult, hsession, htype, Ne.symm hresult, Ne.symm hsession, Ne.symm htype]
  unfold sessionOf?
  induction keys with
  | nil => rfl
  | cons key keys ih =>
    have hkey := htold key
    rw [List.findSome?_cons, List.find?_cons, ih]
    cases htext : (resultRecord text session).text? key with
    | none =>
      rw [htext, Option.getD_none] at hkey
      simp [← hkey]
    | some s =>
      rw [htext, Option.getD_some] at hkey
      by_cases hempty : s = ""
      · simp [← hkey, hempty]
      · simp [← hkey, hempty]

/-! ## 5. Envelopes

A record around an event. -/

/-- The line has an event, and the other one has an envelope with an equal event in it. -/
def IsEnvelopeOf (wrapped line : String) : Prop :=
  '\n' ∉ wrapped.toList ∧ ∃ e envelope inner, eventOfLine? line = some e ∧
    e.text? "type" ≠ some "stream_event" ∧ eventOfLine? wrapped = some envelope ∧
    envelope.text? "type" = some "stream_event" ∧ envelope.get? "event" = some inner ∧ Same inner e

/-- The line between the ends of an envelope. -/
def envelope (line : String) : String :=
  String.ofList ('\x7b' :: (Json.quoted "type" ++ ':' :: (Json.quoted "stream_event" ++
    ',' :: (Json.quoted "event" ++ ':' :: (Text.trim line).toList))) ++ ['\x7d'])

theorem unwrap_of_type (h : e.text? "type" ≠ some "stream_event") : unwrap e = e := if_neg h

/-- The record that the text of an envelope is. -/
theorem readChars?_envelope {cs : List Char} (h : Json.readChars? cs = some e) :
    Json.readChars? ('\x7b' :: (Json.quoted "type" ++ ':' :: (Json.quoted "stream_event" ++
        ',' :: (Json.quoted "event" ++ ':' :: cs))) ++ ['\x7d']) =
      some (.record [("type", .text "stream_event"), ("event", e)]) := by
  generalize hr : Json.quoted "type" ++ ':' :: (Json.quoted "stream_event" ++
    ',' :: (Json.quoted "event" ++ ':' :: cs)) = r
  have hfields : r ++ ['\x7d'] = Json.quoted "type" ++ ':' :: (Json.quoted "stream_event" ++
      ',' :: (Json.quoted "event" ++ ':' :: (cs ++ ['\x7d']))) := by simp [← hr]
  have hfront : ∀ rest, Json.skipSpace (r ++ ['\x7d']) ≠ '\x7d' :: rest := by
    rw [hfields, Json.quoted, List.cons_append, List.cons_append, Json.skipSpace_of_not rfl]
    exact fun rest heq => absurd (List.cons.inj heq).1 (by decide)
  have hfuel : ∃ more, (r ++ ['\x7d']).length = cs.length + 1 + more + 1 := by
    refine ⟨(r ++ ['\x7d']).length - (cs.length + 2), ?_⟩
    simp only [← hr, List.length_append, List.length_cons, List.length_nil]
    omega
  obtain ⟨more, hmore⟩ := hfuel
  have hread : Json.fields? (cs.length + 1 + more + 1 + 1) (r ++ ['\x7d']) =
      some ([(some "type", .text "stream_event"), (some "event", e)], []) := by
    rw [hfields, Json.fields?_more (Json.value?_quoted _ _ _) (Json.skipSpace_of_not rfl),
      Json.fields?_embedded h]
    rfl
  rw [List.cons_append, Json.readChars?, List.length_cons, Json.value?_record hfront, hmore, hread]
  rfl

/-- **The text of an envelope is one.** -/
theorem isEnvelopeOf_envelope (hline : '\n' ∉ line.toList) (h : eventOfLine? line = some e)
    (htype : e.text? "type" ≠ some "stream_event") (hdepth : e.depth < Json.depthLimit) :
    IsEnvelopeOf (envelope line) line := by
  obtain ⟨-, hread, hwhole⟩ := eventOfLine?_eq_some_iff.mp h
  let fields : List (String × Json) := [("type", .text "stream_event"), ("event", e)]
  have hwhole' : (Json.record fields).isWhole = true := by
    simp only [Json.isWhole, Bool.and_eq_true, decide_eq_true_eq] at hwhole ⊢
    refine ⟨?_, ?_⟩
    · simp only [fields, Json.depth, Json.depthFields]
      omega
    · simp [fields, Json.isSound, Json.soundFields, hwhole.2]
  have henvelope : eventOfLine? (envelope line) = some (.record fields) :=
    eventOfLine?_braced (readChars?_envelope hread) hwhole'
  have hfeed : '\n' ∉ (envelope line).toList := by
    have htrimmed : '\n' ∉ (Text.trim line).toList := by
      rw [Text.trim, String.toList_ofList]
      exact fun hmem => hline ((Text.trimChars_sublist _).subset hmem)
    simp [envelope, Json.lineFeed_notMem_quoted, htrimmed]
  have hkind : (Json.record fields).text? "type" = some "stream_event" := by
    simp [fields, Json.text?, Json.get?, Json.lastField?]
  have hinner : (Json.record fields).get? "event" = some e := by
    simp [fields, Json.get?, Json.lastField?]
  exact ⟨hfeed, e, _, e, h, htype, henvelope, hkind, hinner, .refl e⟩

/-- The transcript after the events of an output. -/
theorem foldl_wrapped {lines wrapped : List String}
    (h : List.Forall₂ (fun w l => w = l ∨ IsEnvelopeOf w l) wrapped lines)
    (hlines : ∀ l ∈ lines, '\n' ∉ l.toList) (t : Transcript) :
    (wrapped.flatMap events).foldl (fun t e => t.take (unwrap e)) t =
      (lines.flatMap events).foldl (fun t e => t.take (unwrap e)) t := by
  induction h generalizing t with
  | nil => rfl
  | @cons w l wrapped lines hwrap _ ih =>
    have hstep : (events w).foldl (fun t e => t.take (unwrap e)) t =
        (events l).foldl (fun t e => t.take (unwrap e)) t := by
      rcases hwrap with rfl | ⟨hw, e, envelope, inner, he, htype, henvelope, hkind, hinner, hsame⟩
      · rfl
      · have hunwrap : unwrap envelope = inner := by
          rw [unwrap, if_pos hkind, hinner]
          rfl
        rw [events_line hw, events_line (hlines l List.mem_cons_self), he, henvelope]
        show t.take (unwrap envelope) = t.take (unwrap e)
        rw [hunwrap, unwrap_of_type htype]
        exact t.take_same hsame
    rw [List.flatMap_cons, List.flatMap_cons, List.foldl_append, List.foldl_append, hstep]
    exact ih (fun l' hl' => hlines l' (List.mem_cons_of_mem _ hl')) _

/-! ## 6. The answer survives

What was proved of lines, put together for outputs. -/

theorem events_noise {lines : List String} (h : ∀ line ∈ lines, IsNoise line) :
    lines.flatMap events = [] :=
  List.flatMap_eq_nil_iff.mpr fun line hline => events_of_isNoise (h line hline)

theorem finalText_of_events {a b : String} (h : events a = events b) :
    finalText a = finalText b := by
  rw [finalText, finalText, h]

theorem sessionId_of_events {a b : String} (h : events a = events b) (keys : List String) :
    sessionId a keys = sessionId b keys := by
  rw [sessionId, sessionId, h]

/-- The session that the record with a result names is the one it was given, unless another text
stands under a key that comes first. -/
theorem sessionId_resultLine_iff {text session : String} {keys : List String}
    (hkeys : "session_id" ∈ keys) : sessionId (resultLine text session) keys = session ↔
      ∀ key, keys.find? (fun key => told text session key ≠ "") = some key →
        told text session key = session := by
  rw [sessionId, events_resultLine, List.findSome?_singleton, sessionOf?_resultRecord]
  cases hfirst : keys.find? fun key => told text session key ≠ "" with
  | some key => simp
  | none =>
    have hempty : told text session "session_id" = "" := by
      simpa using List.find?_eq_none.mp hfirst "session_id" hkeys
    simpa [told] using hempty.symm

/-- **The answer survives the stream.**  A result is found amid lines that are no records: its text
is the final text, and its session is the one that is named, if the first key under which the
record has a text is one with the session.  Noise between the lines of any output changes neither
the final text nor the session, and envelopes around events do not change the final text; the text
of a line between the ends of an envelope is such an envelope, if it is not nested too deep. -/
theorem answer_survives_stream :
    (∀ (text session : String) (before after : List String),
      (∀ line ∈ before ++ after, IsNoise line) →
      let stdout := Text.joinWith "\n" (before ++ resultLine text session :: after)
      finalText stdout = text ∧ ∀ keys, "session_id" ∈ keys →
        (sessionId stdout keys = session ↔
          ∀ key, keys.find? (fun key => told text session key ≠ "") = some key →
            told text session key = session)) ∧
    (∀ (stdout : String) (noisy : List String), Interspersed (Text.split stdout '\n') noisy →
      finalText (Text.joinWith "\n" noisy) = finalText stdout ∧
        ∀ keys, sessionId (Text.joinWith "\n" noisy) keys = sessionId stdout keys) ∧
    (∀ (stdout : String) (wrapped : List String),
      List.Forall₂ (fun w line => w = line ∨ IsEnvelopeOf w line) wrapped
        (Text.split stdout '\n') →
      finalText (Text.joinWith "\n" wrapped) = finalText stdout) ∧
    (∀ (line : String) (e : Json), '\n' ∉ line.toList → eventOfLine? line = some e →
      e.text? "type" ≠ some "stream_event" → e.depth < Json.depthLimit →
      IsEnvelopeOf (envelope line) line) := by
  -- noise yields no events, and the final text sees through an envelope around one
  refine ⟨fun text session before after hnoise => ?_, fun stdout noisy hnoisy => ?_,
    fun stdout wrapped hwrapped => ?_, fun line e => isEnvelopeOf_envelope⟩
  · have hevents : events (Text.joinWith "\n" (before ++ resultLine text session :: after)) =
        events (resultLine text session) := by
      rw [events_joinWith, List.flatMap_append, List.flatMap_cons,
        events_noise fun line hline => hnoise line (List.mem_append_left _ hline),
        events_noise fun line hline => hnoise line (List.mem_append_right _ hline),
        List.nil_append, List.append_nil]
    intro stdout
    refine ⟨?_, fun keys hkeys => ?_⟩
    · rw [finalText_of_events hevents, finalText, events_resultLine]
      rfl
    · rw [sessionId_of_events hevents, sessionId_resultLine_iff hkeys]
  · have hevents : events (Text.joinWith "\n" noisy) = events stdout := by
      rw [events_joinWith, flatMap_events_interspersed hnoisy, events_pieces]
    exact ⟨finalText_of_events hevents, sessionId_of_events hevents⟩
  · have hfolded := foldl_wrapped hwrapped (fun line => Text.notMem_of_mem_split) {}
    rw [finalText, finalText, events_joinWith, hfolded, events_pieces]

/-- An answer with a line feed and quotes, behind half a record; a message that ends behind a
warning; and the same message in an envelope. -/
theorem answer_amid_noise :
    let stdout := Text.joinWith "\n" (["\x7b\"type\":"] ++ resultLine "one\n\"two\"" "s-1" :: [""])
    let message := "\x7b\"type\":\"message_stop\"\x7d"
    (finalText stdout = "one\n\"two\"" ∧
        sessionId stdout ["thread_id", "session_id", "type"] = "s-1") ∧
      finalText (Text.joinWith "\n" ["warning", message]) = finalText message ∧
      finalText (Text.joinWith "\n" [envelope message]) = finalText message := by
  intro stdout message
  obtain ⟨hanswer, hnoisy, hwrapped, henvelope⟩ := answer_survives_stream
  have hsplit : Text.split message '\n' = [message] := by decide +kernel
  refine ⟨?_, ?_, ?_⟩
  · obtain ⟨htext, hsession⟩ :=
      hanswer "one\n\"two\"" "s-1" ["\x7b\"type\":"] [""] (by decide +kernel)
    refine ⟨htext, (hsession _ (by decide)).mpr fun key hkey => ?_⟩
    have hfirst : ["thread_id", "session_id", "type"].find?
        (fun key => told "one\n\"two\"" "s-1" key ≠ "") = some "session_id" := by decide
    rw [hfirst, Option.some.injEq] at hkey
    subst hkey
    rfl
  · refine (hnoisy message ["warning", message] ?_).1
    rw [hsplit]
    exact .noise (by decide +kernel) (.keep message .nil)
  · obtain ⟨e, he⟩ := Option.isSome_iff_exists.mp
      (show (eventOfLine? message).isSome = true by decide +kernel)
    have hkind : (eventOfLine? message).bind (fun e => e.text? "type") = some "message_stop" := by
      decide +kernel
    have hdepth : (eventOfLine? message).map Json.depth = some 1 := by decide +kernel
    rw [he] at hkind hdepth
    refine hwrapped message [envelope message] ?_
    rw [hsplit]
    refine .cons (.inr (henvelope message e (by decide +kernel) he ?_ ?_)) .nil
    · rw [show e.text? "type" = some "message_stop" from hkind]
      decide
    · rw [Option.some.inj hdepth]
      decide

/-- **Another key may come first**: the kind of the record is a text as well. -/
theorem kind_taken_for_session :
    ¬ ∀ (text session : String) (before after keys : List String),
      (∀ line ∈ before ++ after, IsNoise line) → "session_id" ∈ keys →
      sessionId (Text.joinWith "\n" (before ++ resultLine text session :: after)) keys =
        session := by
  intro hnamed
  have hsession := hnamed "done" "s-1" [] [] ["type", "session_id"] (by decide) (by decide)
  exact absurd hsession (by decide +kernel)

end Agent
end Foreman
