/-
# A state that is saved is loaded again

Every part of a state is written as a record and read from it by the names of its fields.  What is
written is read back, as long as it is of the kind that a document can hold: a number fits its
word, an instant can be written, and a table stands in order.

* `Resume.ofJson?_toJson` to `Registry.ofJson?_toJson`: the parts of a state.
* `State.ofJson?_toJson`: the state.
* `State.ofDocument_document`: the text of a state.
* `state_round_trip`: what is loaded where a state was saved.

For each part there are three lemmas.  The first gives the record that is written as a list of
its fields with those that have no value left out; the second reads it back, by the general
lemma on such lists in `Foreman.Proofs.Json.Fields`; the third says that no digit of it is lost
in the text (`Json.IsExact`).  What a document can hold of a part is its `Fits`, and each
condition of it is one on a single field.
-/
import Mathlib.Tactic.MkIffOfInductiveProp
import Foreman.Proofs.Files.Write
import Foreman.Proofs.Json.Fields
import Foreman.State.Document

namespace Foreman

open Json

/-! ## 1. What is remembered of tasks

Attempts and metrics, each in a table by task. -/

namespace Resume

theorem toJson_eq (r : Resume) :
    r.toJson = .record (filled [("attempts", some (Json.ofNat r.attempts)),
      ("last_failure", r.lastFailure.map .text),
      ("last_failed_at", r.lastFailedAt.map Json.ofInstant),
      ("earliest_retry", r.earliestRetry.map Json.ofInstant),
      ("session_id", r.sessionId.map .text), ("workspace", r.workspace.map .text),
      ("last_output", r.lastOutput.map .text)]) := by
  simp [toJson]

/-- The count fits its word, and the instants can be written. -/
@[mk_iff] structure Fits (r : Resume) : Prop where
  attempts : r.attempts < Text.bound32
  lastFailedAt : ∀ t ∈ r.lastFailedAt, t.IsWritable
  earliestRetry : ∀ t ∈ r.earliestRetry, t.IsWritable

instance (r : Resume) : Decidable r.Fits := decidable_of_iff' _ (fits_iff r)

variable {r : Resume}

theorem ofJson?_toJson (h : r.Fits) : ofJson? r.toJson = some r := by
  rw [toJson_eq, ofJson?]
  refine bind_of_eq_some (asFields?_filled _ (by simp)) ?_
  refine bind_of_eq_some (getD?_nat rfl h.attempts) ?_
  refine bind_of_eq_some (maybe?_text rfl) ?_
  refine bind_of_eq_some (maybe?_instant rfl h.lastFailedAt) ?_
  refine bind_of_eq_some (maybe?_instant rfl h.earliestRetry) ?_
  refine bind_of_eq_some (maybe?_text rfl) ?_
  refine bind_of_eq_some (maybe?_text rfl) ?_
  refine bind_of_eq_some (maybe?_text rfl) ?_
  rfl

theorem isExact_toJson (h : r.Fits) : r.toJson.IsExact := by
  rw [toJson_eq]
  refine isExact_filled ?_
  simp [IsExact.text, isExact_ofInstant, isExact_ofNat (Nat.lt_trans h.attempts (by decide))]

end Resume

namespace Metrics

theorem toJson_eq (m : Metrics) :
    m.toJson = .record (filled [("attempt_count", some (Json.ofNat m.attempts)),
      ("success_count", some (Json.ofNat m.successes)),
      ("total_duration_ms", some (Json.ofNat m.total)),
      ("last_duration_ms", some (Json.ofNat m.last)),
      ("min_duration_ms", some (Json.ofNat m.least)),
      ("max_duration_ms", some (Json.ofNat m.most))]) := rfl

/-- The counts and durations fit their words. -/
@[mk_iff] structure Fits (m : Metrics) : Prop where
  attempts : m.attempts < Text.bound32
  successes : m.successes < Text.bound32
  total : m.total < Text.bound64
  last : m.last < Text.bound64
  least : m.least < Text.bound64
  most : m.most < Text.bound64

instance (m : Metrics) : Decidable m.Fits := decidable_of_iff' _ (fits_iff m)

variable {m : Metrics}

theorem ofJson?_toJson (h : m.Fits) : ofJson? m.toJson = some m := by
  rw [toJson_eq, ofJson?]
  refine bind_of_eq_some (asFields?_filled _ (by simp)) ?_
  refine bind_of_eq_some (getD?_nat rfl h.attempts) ?_
  refine bind_of_eq_some (getD?_nat rfl h.successes) ?_
  refine bind_of_eq_some (getD?_nat rfl h.total) ?_
  refine bind_of_eq_some (getD?_nat rfl h.last) ?_
  refine bind_of_eq_some (getD?_nat rfl h.least) ?_
  refine bind_of_eq_some (getD?_nat rfl h.most) ?_
  rfl

theorem isExact_toJson (h : m.Fits) : m.toJson.IsExact := by
  rw [toJson_eq]
  refine isExact_filled ?_
  simp [isExact_ofNat (Nat.lt_trans h.attempts (by decide)),
    isExact_ofNat (Nat.lt_trans h.successes (by decide)), isExact_ofNat h.total,
    isExact_ofNat h.last, isExact_ofNat h.least, isExact_ofNat h.most]

end Metrics

/-! ## 2. Workers

The process number and the session may be missing. -/

theorem WorkerStatus.ofJson?_toJson (s : WorkerStatus) : ofJson? s.toJson = some s :=
  ofName?_name s

namespace Worker

theorem toJson_eq (w : Worker) :
    w.toJson = .record (filled [
      ("worker_id", some (.text w.id)), ("task_id", some (.text w.taskId)),
      ("workspace", some (.text w.workspace)), ("backend", some (.text w.backend)),
      ("pid", w.pid.map Json.ofNat), ("started_at", some (Json.ofInstant w.startedAt)),
      ("session_id", w.sessionId.map .text), ("iteration", some (Json.ofNat w.iteration)),
      ("status", some w.status.toJson)]) := by
  simp [toJson]

/-- The numbers fit their words, and the start can be written. -/
@[mk_iff] structure Fits (w : Worker) : Prop where
  pid : ∀ n ∈ w.pid, n < Text.bound32
  startedAt : w.startedAt.IsWritable
  iteration : w.iteration < Text.bound32

instance (w : Worker) : Decidable w.Fits := decidable_of_iff' _ (fits_iff w)

variable {w : Worker}

theorem ofJson?_toJson (h : w.Fits) : ofJson? w.toJson = some w := by
  rw [toJson_eq, ofJson?]
  refine bind_of_eq_some (asFields?_filled _ (by simp)) ?_
  refine bind_of_eq_some (need?_text rfl) ?_
  refine bind_of_eq_some (need?_text rfl) ?_
  refine bind_of_eq_some (need?_text rfl) ?_
  refine bind_of_eq_some (need?_text rfl) ?_
  refine bind_of_eq_some (maybe?_nat rfl h.pid) ?_
  refine bind_of_eq_some (need?_instant rfl h.startedAt) ?_
  refine bind_of_eq_some (maybe?_text rfl) ?_
  refine bind_of_eq_some (getD?_nat rfl h.iteration) ?_
  refine bind_of_eq_some (need?_of_some rfl (WorkerStatus.ofJson?_toJson w.status)) ?_
  rfl

theorem isExact_toJson (h : w.Fits) : w.toJson.IsExact := by
  have hpid : ∀ n ∈ w.pid, (Json.ofNat n).IsExact := fun n hn =>
    isExact_ofNat (Nat.lt_trans (h.pid n hn) (by decide))
  have hstatus : w.status.toJson.IsExact := .text _
  rw [toJson_eq]
  refine isExact_filled ?_
  simpa [IsExact.text, isExact_ofInstant, hstatus,
    isExact_ofNat (Nat.lt_trans h.iteration (by decide))] using hpid

end Worker

/-! ## 3. Claims and the queue

Of a claim in a queue entry only the reference is written. -/

namespace ClaimRef

theorem toJson_eq (c : ClaimRef) :
    c.toJson = .record (filled [("worker_id", some (.text c.workerId)),
      ("task_id", some (.text c.taskId)), ("pattern", some (.text c.pattern))]) := rfl

theorem ofJson?_toJson (c : ClaimRef) : ofJson? c.toJson = some c := by
  rw [toJson_eq, ofJson?]
  refine bind_of_eq_some (asFields?_filled _ (by simp)) ?_
  refine bind_of_eq_some (need?_text rfl) ?_
  refine bind_of_eq_some (need?_text rfl) ?_
  refine bind_of_eq_some (need?_text rfl) ?_
  rfl

theorem isExact_toJson (c : ClaimRef) : c.toJson.IsExact := by
  rw [toJson_eq]
  refine isExact_filled ?_
  simp [IsExact.text]

end ClaimRef

namespace Claim

theorem toJson_eq (c : Claim) :
    c.toJson = .record (filled [("pattern", some (.text c.pattern)),
      ("worker_id", some (.text c.workerId)), ("task_id", some (.text c.taskId)),
      ("claimed_at", some (Json.ofInstant c.claimedAt))]) := rfl

theorem ofJson?_toJson {c : Claim} (h : c.claimedAt.IsWritable) : ofJson? c.toJson = some c := by
  rw [toJson_eq, ofJson?]
  refine bind_of_eq_some (asFields?_filled _ (by simp)) ?_
  refine bind_of_eq_some (need?_text rfl) ?_
  refine bind_of_eq_some (need?_text rfl) ?_
  refine bind_of_eq_some (need?_text rfl) ?_
  refine bind_of_eq_some (need?_instant rfl h) ?_
  rfl

theorem isExact_toJson (c : Claim) : c.toJson.IsExact := by
  rw [toJson_eq]
  refine isExact_filled ?_
  simp [IsExact.text, isExact_ofInstant]

end Claim

namespace QueueEntry

theorem toJson_eq (e : QueueEntry) :
    e.toJson = .record (filled [("task_id", some (.text e.taskId)),
      ("footprint", some (.list (e.footprint.map .text))), ("blocking", some e.blocking.toJson),
      ("enqueued_at", some (Json.ofInstant e.enqueuedAt))]) := rfl

theorem ofJson?_toJson {e : QueueEntry} (h : e.enqueuedAt.IsWritable) :
    ofJson? e.toJson = some e := by
  rw [toJson_eq, ofJson?]
  refine bind_of_eq_some (asFields?_filled _ (by simp)) ?_
  refine bind_of_eq_some (need?_text rfl) ?_
  refine bind_of_eq_some (getD?_of_some rfl (asList?_map fun _ _ => rfl)) ?_
  refine bind_of_eq_some (need?_of_some rfl e.blocking.ofJson?_toJson) ?_
  refine bind_of_eq_some (need?_instant rfl h) ?_
  rfl

theorem isExact_toJson (e : QueueEntry) : e.toJson.IsExact := by
  have hfootprint : (Json.list (e.footprint.map .text)).IsExact := isExact_list fun p _ => .text p
  rw [toJson_eq]
  refine isExact_filled ?_
  simp [IsExact.text, isExact_ofInstant, hfootprint, e.blocking.isExact_toJson]

end QueueEntry

namespace Registry

theorem toJson_eq (r : Registry) :
    r.toJson = .record (filled [("claims", some (.list (r.claims.map Claim.toJson))),
      ("queue", some (.list (r.queue.map QueueEntry.toJson)))]) := rfl

/-- The instants can be written. -/
@[mk_iff] structure Fits (r : Registry) : Prop where
  claims : ∀ c ∈ r.claims, c.claimedAt.IsWritable
  queue : ∀ e ∈ r.queue, e.enqueuedAt.IsWritable

instance (r : Registry) : Decidable r.Fits := decidable_of_iff' _ (fits_iff r)

theorem ofJson?_toJson {r : Registry} (h : r.Fits) : ofJson? r.toJson = some r := by
  rw [toJson_eq, ofJson?]
  refine bind_of_eq_some (asFields?_filled _ (by simp)) ?_
  refine bind_of_eq_some (getD?_of_some rfl
    (asList?_map fun c hc => Claim.ofJson?_toJson (h.claims c hc))) ?_
  refine bind_of_eq_some (getD?_of_some rfl
    (asList?_map fun e he => QueueEntry.ofJson?_toJson (h.queue e he))) ?_
  rfl

theorem isExact_toJson (r : Registry) : r.toJson.IsExact := by
  rw [toJson_eq]
  refine isExact_filled ?_
  simp [isExact_list fun (c : Claim) _ => c.isExact_toJson,
    isExact_list fun (e : QueueEntry) _ => e.isExact_toJson]

end Registry

/-! ## 4. The state

The document as a whole.  Tables stand in the order of their keys, which the reader brings them
into. -/

namespace State

theorem toJson_eq (s : State) :
    s.toJson = .record (filled [("schema_version", some (Json.ofNat s.schemaVersion)),
      ("tick", some (Json.ofNat s.tick)), ("saved_at", s.savedAt.map Json.ofInstant),
      ("resume", some (.record (s.resume.map Resume.toJson).entries)),
      ("registry", some s.registry.toJson), ("workers", some (.list (s.workers.map Worker.toJson))),
      ("metrics", some (.record (s.metrics.map Metrics.toJson).entries)),
      ("first_seen", some (.record (s.firstSeen.map Json.ofInstant).entries))]) := by
  simp [toJson]

/-- What a state holds beside its version and the time of writing is of the kind that a document
can hold: numbers fit their words, instants can be written, and tables stand in order. -/
@[mk_iff] structure Fits (s : State) : Prop where
  tick : s.tick < Text.bound64
  resumeSorted : s.resume.IsSorted
  resume : ∀ e ∈ s.resume.entries, e.2.Fits
  registry : s.registry.Fits
  workers : ∀ w ∈ s.workers, w.Fits
  metricsSorted : s.metrics.IsSorted
  metrics : ∀ e ∈ s.metrics.entries, e.2.Fits
  firstSeenSorted : s.firstSeen.IsSorted
  firstSeen : ∀ e ∈ s.firstSeen.entries, e.2.IsWritable

instance (s : State) : Decidable s.Fits := decidable_of_iff' _ (fits_iff s)

variable {s : State}

theorem ofJson?_toJson (h : s.Fits) (hversion : s.schemaVersion < Text.bound32)
    (hsaved : ∀ t ∈ s.savedAt, t.IsWritable) : ofJson? s.toJson = some s := by
  rw [toJson_eq, ofJson?]
  refine bind_of_eq_some (asFields?_filled _ (by simp)) ?_
  refine bind_of_eq_some (need?_of_some rfl (asNat?_ofNat hversion)) ?_
  refine bind_of_eq_some (getD?_nat rfl h.tick) ?_
  refine bind_of_eq_some (maybe?_instant rfl hsaved) ?_
  refine bind_of_eq_some (getD?_of_some rfl
    (asTable?_map h.resumeSorted fun e he => Resume.ofJson?_toJson (h.resume e he))) ?_
  refine bind_of_eq_some (getD?_of_some rfl (Registry.ofJson?_toJson h.registry)) ?_
  refine bind_of_eq_some (getD?_of_some rfl
    (asList?_map fun w hw => Worker.ofJson?_toJson (h.workers w hw))) ?_
  refine bind_of_eq_some (getD?_of_some rfl
    (asTable?_map h.metricsSorted fun e he => Metrics.ofJson?_toJson (h.metrics e he))) ?_
  refine bind_of_eq_some (getD?_of_some rfl
    (asTable?_map h.firstSeenSorted fun e he => asInstant?_ofInstant (h.firstSeen e he))) ?_
  rfl

theorem isExact_toJson (h : s.Fits) (hversion : s.schemaVersion < Text.bound64) :
    s.toJson.IsExact := by
  have hworkers := isExact_list fun w hw => Worker.isExact_toJson (h.workers w hw)
  have hresume := isExact_table fun e he => Resume.isExact_toJson (h.resume e he)
  have hmetrics := isExact_table fun e he => Metrics.isExact_toJson (h.metrics e he)
  have hfirstSeen := isExact_table (t := s.firstSeen) fun e _ => isExact_ofInstant e.2
  rw [toJson_eq]
  refine isExact_filled ?_
  simp [isExact_ofNat hversion, isExact_ofNat h.tick, isExact_ofInstant, hworkers, hresume,
    hmetrics, hfirstSeen, s.registry.isExact_toJson]

/-- No document is blank. -/
theorem isBlankText_document (s : State) : Text.isBlankText s.document = false := by
  have hfront : ∃ cs, s.document.toList = '\x7b' :: cs := by
    rw [document, pretty, String.toList_ofList, toJson_eq, filled_cons_some]
    exact ⟨_, prettyChars_record 0 _ _⟩
  obtain ⟨cs, hcs⟩ := hfront
  rw [Text.isBlankText, hcs]
  rfl

/-- **The text of a state is read as that state.** -/
theorem ofDocument_document (h : s.Fits) (hversion : s.schemaVersion = currentVersion)
    (hsaved : ∀ t ∈ s.savedAt, t.IsWritable) (path : String) :
    ofDocument path s.document = .ok s := by
  have hread : (Json.read? s.document).bind ofJson? = some s := by
    rw [document, read?_pretty (isExact_toJson h (by rw [hversion]; decide)), Option.bind_some,
      ofJson?_toJson h (by rw [hversion]; decide) hsaved]
  rw [ofDocument, isBlankText_document, if_neg (by decide), hread]
  exact if_pos hversion

theorem Fits.stamped (h : s.Fits) (now : Instant) : (s.stamped now).Fits :=
  ⟨h.tick, h.resumeSorted, h.resume, h.registry, h.workers, h.metricsSorted, h.metrics,
    h.firstSeenSorted, h.firstSeen⟩

/-- Putting a state in place replaces its file. -/
theorem commit_eq_ok {t t' : Tree} {path : String} (h : commit t path s = .ok t') :
    t.replace path (Utf8.encode s.document.toList) = .ok t' := by
  unfold commit at h
  split at h
  · rename_i hreplace
    cases h
    exact hreplace
  · cases h

/-- A state that was saved was stamped, and put in place as a whole. -/
theorem save_eq_ok {t t' : Tree} {path : String} {now : Instant} {s' : State}
    (h : s.save t path now = .ok (s', t')) :
    s' = s.stamped now ∧ ∃ prepared, commit prepared path (s.stamped now) = .ok t' := by
  unfold save at h
  split at h
  · cases h
  · rename_i prepared _
    dsimp only at h
    split at h
    · cases h
    · split at h
      · cases h
      · rename_i hcommit
        cases h
        exact ⟨rfl, prepared, hcommit⟩

end State

/-! ## 5. Saving and loading

From the text to the file.  The saving stamps the state, and what is loaded carries the stamp. -/

/-- **What is saved is loaded again.**  Let a state be of the kind that a document can hold, and
save it at a time that can be written.  Then

* the text of its document is read as the state with the current version and that time;
* where the saving succeeds at the name of a file, that text is found there, and what is loaded is
  that state.

An instant of the calendar can be written exactly if what is read of its text is the instant, so no
other state is left out than those of which an instant is lost in writing. -/
theorem state_round_trip {s : State} {now : Instant} (hs : s.Fits) (hnow : now.IsWritable) :
    let saved : State := { s with schemaVersion := 1, savedAt := some now }
    (∀ path, State.ofDocument path saved.document = .ok saved) ∧
      (∀ (t t' : Tree) (path : String) (s' : State), Path.namesDirectory path = false →
        s.save t path now = .ok (s', t') →
          s' = saved ∧ t'.readText path = .ok saved.document ∧
            State.load t' path = .ok saved) ∧
      ∀ t : Instant, t.IsValid → (t.IsWritable ↔ Rfc3339.read? (Rfc3339.write t) = some t) := by
  intro saved
  have hdocument : ∀ path, State.ofDocument path saved.document = .ok saved :=
    State.ofDocument_document (hs.stamped now) rfl fun t ht => Option.some.inj ht ▸ hnow
  refine ⟨hdocument, fun t t' path s' hname hsave => ?_, fun t ht => ?_⟩
  · obtain ⟨hs', prepared, hcommit⟩ := State.save_eq_ok hsave
    have htext : t'.readText path = .ok saved.document :=
      Tree.readText_replace hname (State.commit_eq_ok hcommit)
    refine ⟨hs', htext, ?_⟩
    rw [State.load, htext]
    exact hdocument path
  · rw [Rfc3339.read?_write_iff ht]
    exact and_iff_right ht

namespace Sample

/-- A state with a value in every field, and with some that are missing. -/
def remembered : State where
  schemaVersion := 7
  tick := 18446744073709551615
  savedAt := none
  resume := .ofList [
    ("T-2", { attempts := 2, lastFailure := some "say \"no\"\n\tand \\ stop\x01",
              lastFailedAt := some ⟨19723, 86399, 1999999999⟩,
              earliestRetry := some ⟨-96465292, 0, 1⟩, workspace := some "/w/é/\u2603" }),
    ("", {})]
  registry := {
    claims := [⟨"src", "worker-1", "T-2", ⟨19723, 43200, 120000000⟩⟩]
    queue := [⟨"T-3", ["src/a.rs", "docs"], ⟨"worker-1", "T-2", "src"⟩, ⟨19723, 43200, 5000⟩⟩] }
  workers := [
    ⟨"worker-1", "T-2", "/w", "claude", some 4294967295, ⟨95026236, 0, 0⟩, some "s-1", 1, .running⟩,
    ⟨"worker-0", "T-9", "", "", none, ⟨0, 0, 0⟩, none, 0, .abandoned⟩]
  metrics := .ofList [("T-2", ⟨3, 1, 18446744073709551615, 10, 0, 20⟩)]
  firstSeen := .ofList [("b", ⟨1, 1, 1⟩), ("a\x7d", ⟨-719529, 59, 0⟩)]

end Sample

/-- The sample is saved during a leap second and loaded again. -/
theorem remembered_is_loaded :
    let s := Sample.remembered
    let now : Instant := ⟨17166, 86399, 1500000000⟩
    s.Fits ∧ now.IsWritable ∧
      ∃ t', s.save .empty "/p/state.json" now =
          .ok ({ s with schemaVersion := 1, savedAt := some now }, t') ∧
        State.load t' "/p/state.json" =
          .ok { s with schemaVersion := 1, savedAt := some now } := by
  intro s now
  have hs : s.Fits := by decide +kernel
  have hnow : now.IsWritable := by decide +kernel
  have hsaves : (s.save .empty "/p/state.json" now).isOk = true := by decide +kernel
  refine ⟨hs, hnow, ?_⟩
  cases hsave : s.save .empty "/p/state.json" now with
  | error e =>
    rw [hsave] at hsaves
    cases hsaves
  | ok p =>
    obtain ⟨s', t'⟩ := p
    obtain ⟨rfl, -, hload⟩ := (state_round_trip hs hnow).2.1 .empty t' "/p/state.json" s'
      (by decide +kernel) hsave
    exact ⟨t', rfl, hload⟩

end Foreman
