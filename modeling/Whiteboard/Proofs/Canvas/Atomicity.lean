import Mathlib.Data.List.Induction
import Whiteboard.Canvas.Apply
import Whiteboard.Except
import Whiteboard.Proofs.History

/-!
# All or nothing

Main statement: whatever texts are put on a canvas one after the other, by whatever appliers, a failure leaves everything as
it was and nobody hears of it, a success is one change that everybody hears of once, and the record is always that of the
canvas (`Desk.all_or_nothing`).

The record is written before the canvas is changed, so the two would come apart if a later step failed. To say that they do
not, `Applier.perform` takes the steps with their effects: where one fails, what the steps before it have done stays done.
`Submission.attempt` closes the transaction in which they were taken, and `Submission.attempt_eq` shows that this is what
`Applier.apply` comes to.
-/

namespace Whiteboard

/-- A store and what is kept of records. -/
structure Desk (σ : Type) where
  store : Store
  records : σ

/-- The steps of putting a text on a canvas: the result, the transaction as it has been worked on and the records as they
have been written, also where a step fails. -/
def Applier.perform (a : Applier σ) (now : Nat) (transaction : Transaction) (records : σ) (text : String) :
    Except CanvasError Apply.Outcome × Transaction × σ :=
  let (text, diff?) := Apply.textFor a.mode transaction.staged text
  match Apply.elementsOf a.convert transaction.staged.scene.viewport (Document.parse text) with
  | .error e => (.error e, transaction, records)
  | .ok made =>
    match a.records.write records a.key ⟨made.elements, text, now⟩ with
    | .error cause => (.error (.store cause), transaction, records)
    | .ok records =>
      (.ok ⟨text, made.elements.length, made.mapping, diff?⟩,
        transaction.stage (Canvas.commit made.elements text), records)

/-- A text that is to be put on a canvas, by which applier, and when. -/
structure Submission (σ : Type) where
  applier : Applier σ
  now : Nat
  text : String

/-- What comes of a submission: its result, what has been announced, and what there is afterwards. -/
structure Attempt (σ : Type) where
  result : Except CanvasError Apply.Outcome
  notices : List Notice
  desk : Desk σ

/-- A submission in a transaction of its own, which succeeds if all steps do and is given up otherwise. -/
def Submission.attempt (s : Submission σ) (d : Desk σ) : Attempt σ :=
  let (result, transaction, records) := s.applier.perform s.now (.begin d.store) d.records s.text
  let (store, notices) := match result with
    | .ok _ => transaction.succeed
    | .error _ => transaction.fail
  ⟨result, notices, ⟨store, records⟩⟩

/-- What `Applier.apply` makes of a submission. -/
def Submission.apply (s : Submission σ) (d : Desk σ) : Except CanvasError (Applied σ) :=
  s.applier.apply s.now d.store d.records s.text

/-- Putting a text on a canvas step by step comes to what `Applier.apply` gives: all of it, or nothing. -/
theorem Submission.attempt_eq (s : Submission σ) (d : Desk σ) :
    s.attempt d = match s.apply d with
      | .ok applied => ⟨.ok applied.outcome, applied.notices, ⟨applied.store, applied.records⟩⟩
      | .error e => ⟨.error e, [], d⟩ := by
  unfold Submission.attempt Applier.perform Submission.apply Applier.apply
  simp only [bind, Except.bind]
  cases Apply.elementsOf s.applier.convert (Transaction.begin d.store).staged.scene.viewport
      (Document.parse (Apply.textFor s.applier.mode (Transaction.begin d.store).staged s.text).1) with
  | error e => rfl
  | ok made =>
    simp only
    cases s.applier.records.write d.records s.applier.key
        ⟨made.elements, (Apply.textFor s.applier.mode (Transaction.begin d.store).staged s.text).1, s.now⟩ with
    | error cause => rfl
    | ok records => rfl

/-- What is there after a submission. -/
def Desk.submit (d : Desk σ) (s : Submission σ) : Desk σ := (s.attempt d).desk

/-- A way to keep records from which a reader gets what has been written under the same key, unless the write fails. -/
def RecordStore.KeepsFor (records reader : RecordStore σ) : Prop :=
  ∀ state key record kept, records.write state key record = .ok kept → reader.read kept key = .ok (some record)

/-- Where a key has a value, the value that takes its place is found. -/
theorem Entries.lookup_replace (entries : Entries α) (key : String) (value : α) (h : entries.any (·.1 == key) = true) :
    (entries.map fun entry => if entry.1 == key then (key, value) else entry).lookup key = some value := by
  induction entries with
  | nil => cases h
  | cons entry entries ih =>
    obtain ⟨name, other⟩ := entry
    by_cases hkey : name = key
    · simp [hkey]
    · have hrest : entries.any (·.1 == key) = true := by simpa [hkey] using h
      have hne : (key == name) = false := beq_eq_false_iff_ne.2 (Ne.symm hkey)
      simp only [List.map_cons, beq_iff_eq, hkey, if_false, List.lookup_cons, hne]
      simpa using ih hrest

/-- A value that has been set is found. -/
theorem Entries.lookup_set (entries : Entries α) (key : String) (value : α) :
    (entries.set key value).lookup key = some value := by
  unfold Entries.set
  by_cases hany : entries.any (·.1 == key) = true
  · rw [if_pos hany]
    exact entries.lookup_replace key value hany
  · have hnone : entries.lookup key = none := by
      rw [List.lookup_eq_none_iff]
      intro entry hentry
      simp only [List.any_eq_true, not_exists, not_and] at hany
      simpa using fun heq => hany entry hentry (by simp [heq])
    rw [if_neg hany, List.lookup_append, hnone]
    simp

/-- Records that are held themselves are read as they were written. -/
theorem RecordStore.memory_keepsFor : memory.KeepsFor memory := by
  rintro entries key record kept h
  obtain rfl := Except.ok.inj h
  exact congrArg Except.ok (entries.lookup_set key record)

/-- Where nothing is ever written, nothing has to be read. -/
theorem RecordStore.failing_keepsFor (cause : StoreError) (reader : RecordStore σ) : (failing cause).KeepsFor reader := by
  intro state key record kept h
  cases h

namespace Submission

variable {s : Submission σ} {d : Desk σ} {applied : Applied σ} {e : CanvasError}

/-- A failed attempt shows its cause, gives no notice and changes nothing. -/
theorem attempt_of_error (h : s.apply d = .error e) : s.attempt d = ⟨.error e, [], d⟩ := by
  rw [attempt_eq, h]

/-- A successful attempt shows its outcome and its notices, and leaves what has been applied. -/
theorem attempt_of_ok (h : s.apply d = .ok applied) :
    s.attempt d = ⟨.ok applied.outcome, applied.notices, ⟨applied.store, applied.records⟩⟩ := by
  rw [attempt_eq, h]

/-- A submission that succeeds is one change of the store, to what has been written as the record. -/
theorem exists_of_apply_ok (h : s.apply d = .ok applied) :
    ∃ elements,
      (applied.store, applied.notices) = d.store.change (Canvas.commit elements applied.outcome.diagramText) ∧
      s.applier.records.write d.records s.applier.key ⟨elements, applied.outcome.diagramText, s.now⟩ =
        .ok applied.records := by
  obtain ⟨made, -, h⟩ := exists_of_bind_eq_ok h
  obtain ⟨kept, hwrite, h⟩ := exists_of_bind_eq_ok h
  cases h
  exact ⟨made.elements, rfl, eq_ok_of_mapError_eq_ok hwrite⟩

end Submission

namespace Desk

/-- Of the submissions of a run of which one has succeeded, there is a last one that has, and what it has left is what there
is at the end. -/
theorem exists_last_success {d : Desk σ} {submissions : List (Submission σ)}
    (h : ∃ m ∈ history submit d submissions, ∃ applied, m.event.apply m.before = .ok applied) :
    ∃ before last failed applied, submissions = before ++ last :: failed ∧
      last.apply (before.foldl submit d) = .ok applied ∧
      (∀ m ∈ history submit ⟨applied.store, applied.records⟩ failed, ∃ e, m.event.apply m.before = .error e) ∧
      submissions.foldl submit d = ⟨applied.store, applied.records⟩ := by
  induction submissions using List.reverseRecOn with
  | nil =>
    obtain ⟨m, hm, -⟩ := h
    cases hm
  | append_singleton done last ih =>
    rw [List.foldl_concat]
    cases hlast : last.apply (done.foldl submit d) with
    | ok applied =>
      refine ⟨done, last, [], applied, rfl, hlast, nofun, ?_⟩
      rw [submit, Submission.attempt_of_ok hlast]
    | error e =>
      have hearlier : ∃ m ∈ history submit d done, ∃ applied, m.event.apply m.before = .ok applied := by
        obtain ⟨m, hm, applied, hok⟩ := h
        rw [history_concat] at hm
        rcases List.mem_append.1 hm with hm | hm
        · exact ⟨m, hm, applied, hok⟩
        · rw [List.mem_singleton.1 hm, hlast] at hok
          cases hok
      obtain ⟨before, first, failed, applied, hdone, hok, hfailed, hdesk⟩ := ih hearlier
      have hthere : failed.foldl submit ⟨applied.store, applied.records⟩ = done.foldl submit d := by
        rw [hdone, List.foldl_append, List.foldl_cons, submit, Submission.attempt_of_ok hok]
      refine ⟨before, first, failed ++ [last], applied, by simp [hdone], hok, ?_, ?_⟩
      · intro m hm
        rw [history_concat, hthere] at hm
        rcases List.mem_append.1 hm with hm | hm
        · exact hfailed m hm
        · exact ⟨e, List.mem_singleton.1 hm ▸ hlast⟩
      · rw [submit, Submission.attempt_of_error hlast, hdesk]

/-- Whatever is put on a canvas, by whatever appliers that record it under one key: a submission that fails leaves the store
and the records as they were, and nobody hears of it; one that succeeds is one change of the store, and every subscriber hears
of it once and is shown the new scene. Once any submission has succeeded, there is what the last one of them has left: the
text and the elements on the canvas are those that it has recorded. -/
theorem all_or_nothing {reader : RecordStore σ} {key : String} (d : Desk σ) (submissions : List (Submission σ))
    (hkey : ∀ s ∈ submissions, s.applier.key = key)
    (hkeeps : ∀ s ∈ submissions, s.applier.records.KeepsFor reader) :
    (∀ m ∈ history submit d submissions,
      (∀ e, m.event.apply m.before = .error e → m.after = m.before ∧ (m.event.attempt m.before).notices = []) ∧
      (∀ applied, m.event.apply m.before = .ok applied →
        m.after = ⟨applied.store, applied.records⟩ ∧ m.after.store.revision = m.before.store.revision + 1 ∧
        (m.event.attempt m.before).notices =
          m.before.store.subscribers.map fun n => ⟨n, m.after.store.canvas.scene, m.after.store.revision⟩)) ∧
    ∀ done rest, submissions = done ++ rest →
      (∃ m ∈ history submit d done, ∃ applied, m.event.apply m.before = .ok applied) →
      ∃ before last failed applied, done = before ++ last :: failed ∧
        last.apply (before.foldl submit d) = .ok applied ∧
        (∀ m ∈ history submit ⟨applied.store, applied.records⟩ failed, ∃ e, m.event.apply m.before = .error e) ∧
        done.foldl submit d = ⟨applied.store, applied.records⟩ ∧
        applied.store.canvas.diagramText? = some applied.outcome.diagramText ∧
        reader.read applied.records key =
          .ok (some ⟨applied.store.canvas.scene.elements, applied.outcome.diagramText, last.now⟩) := by
  constructor
  · intro m hm
    obtain ⟨done, rest, -, -, hafter⟩ := exists_of_mem_history hm
    refine ⟨fun e he => ?_, fun applied hok => ?_⟩
    · rw [hafter, submit, Submission.attempt_of_error he]
      exact ⟨rfl, rfl⟩
    · obtain ⟨elements, hchange, -⟩ := Submission.exists_of_apply_ok hok
      obtain ⟨hstore, hnotices⟩ := Prod.mk.inj hchange
      rw [hafter, submit, Submission.attempt_of_ok hok, hstore, hnotices]
      exact ⟨rfl, rfl, rfl⟩
  · intro done rest hsubmissions hsome
    obtain ⟨before, last, failed, applied, hdone, hok, hfailed, hdesk⟩ := exists_last_success hsome
    have hlast : last ∈ submissions := by simp [hsubmissions, hdone]
    obtain ⟨elements, hchange, hwrite⟩ := Submission.exists_of_apply_ok hok
    obtain ⟨hstore, -⟩ := Prod.mk.inj hchange
    refine ⟨before, last, failed, applied, hdone, hok, hfailed, hdesk, by rw [hstore]; rfl, ?_⟩
    rw [← hkey last hlast, hkeeps last hlast _ _ _ _ hwrite, hstore]
    rfl

/-- Makes one box for each node. -/
def boxes (s : Skeleton) : List Element :=
  s.nodes.map fun n => { id := n.id, kind := .rectangle, transform := { x := 0, y := 0, width := 160, height := 60 } }

/-- A text with two nodes. -/
def drawn : Submission (Entries Record) :=
  ⟨⟨boxes, .memory, "canvas", .replaceCanvas⟩, 5, "flowchart TD\n    a --> b\n"⟩

/-- A text whose record is refused. -/
def refused : Submission (Entries Record) :=
  ⟨⟨boxes, .failing (.rejected "disk full"), "canvas", .incremental⟩, 7, "flowchart TD\n    a --> c\n"⟩

/-- A text of which no elements are made. -/
def hollow : Submission (Entries Record) :=
  ⟨⟨fun _ => [], .memory, "canvas", .replaceCanvas⟩, 9, "flowchart TD\n    d\n"⟩

/-- After a text that is refused and one of which nothing is made, the record is still that of the text on the canvas. -/
theorem all_or_nothing_refused :
    let desk : Desk (Entries Record) := ⟨(Store.ofScene {}).subscribe.2, []⟩
    let submissions := [drawn, refused, hollow]
    (∀ s ∈ submissions, s.applier.key = "canvas") ∧ (∀ s ∈ submissions, s.applier.records.KeepsFor .memory) ∧
    (submissions.foldl submit desk).store.revision = 1 ∧
    (submissions.foldl submit desk).store.canvas.diagramText? = some drawn.text ∧
    ∃ time, RecordStore.memory.read (submissions.foldl submit desk).records "canvas" =
      .ok (some ⟨(submissions.foldl submit desk).store.canvas.scene.elements, drawn.text, time⟩) := by
  intro desk submissions
  have hkey : ∀ s ∈ submissions, s.applier.key = "canvas" := by simp [submissions, drawn, refused, hollow]
  have hkeeps : ∀ s ∈ submissions, s.applier.records.KeepsFor .memory := by
    simp [submissions, drawn, refused, hollow, RecordStore.memory_keepsFor, RecordStore.failing_keepsFor]
  have hdrawn : (drawn.apply desk).toBool = true := by decide +kernel
  have htext : (submissions.foldl submit desk).store.canvas.diagramText? = some drawn.text := by decide +kernel
  have hsome : ∃ m ∈ history submit desk submissions, ∃ applied, m.event.apply m.before = .ok applied := by
    cases h : drawn.apply desk with
    | ok applied => exact ⟨_, List.mem_cons_self, applied, h⟩
    | error e =>
      rw [h] at hdrawn
      cases hdrawn
  obtain ⟨before, last, failed, applied, -, -, -, hdesk, hkept, hread⟩ :=
    (all_or_nothing desk submissions hkey hkeeps).2 submissions [] (List.append_nil _).symm hsome
  have hsame : applied.outcome.diagramText = drawn.text := by
    rw [hdesk, hkept] at htext
    exact Option.some.inj htext
  refine ⟨hkey, hkeeps, by decide +kernel, htext, last.now, ?_⟩
  rw [hdesk, hread, hsame]

end Desk

end Whiteboard
