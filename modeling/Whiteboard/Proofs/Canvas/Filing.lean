import Mathlib.Data.List.Forall2
import Whiteboard.Proofs.Canvas.Atomicity
import Whiteboard.Proofs.Canvas.Saving

/-!
# Records in files

A store that keeps records in files answers as one that keeps them in memory does, only that it knows a key by the name of its
file (`RecordStore.answers_files`): a read gives the record that was last written under a key with that file name. Two keys may
have one file name, so what is written under one of them may be read under the other (`RecordStore.answers_files_shared`); as
long as no two keys do, the answers are the same, and a read gives the record that was last written under that very key.

The proof goes along both stores at once: entry by entry, the text in a file is read as the record in memory (`Keeps`). It asks
of the keys in memory only that they are equal where the file names are.
-/

namespace Whiteboard

/-! ## Entries -/

namespace Entries

variable {α β : Type} {R : String × α → String × β → Prop} {es : Entries α} {fs : Entries β} {a b : String}

/-- Another value is found as before where a value takes the place of one. -/
theorem lookup_replace_of_ne (entries : Entries α) {key other : String} (value : α) (h : other ≠ key) :
    (entries.map fun entry => if entry.1 == key then (key, value) else entry).lookup other = entries.lookup other := by
  induction entries with
  | nil => rfl
  | cons entry entries ih =>
    by_cases hkey : entry.1 = key
    · have hne : (other == key) = false := beq_eq_false_iff_ne.2 h
      rw [List.map_cons, if_pos (beq_iff_eq.2 hkey), List.lookup, List.lookup, hkey, hne, ih]
    · rw [List.map_cons, if_neg (by simpa using hkey), List.lookup, List.lookup, ih]

/-- A value that is set under another key does not change what is found. -/
theorem lookup_set_of_ne (entries : Entries α) {key other : String} (value : α) (h : other ≠ key) :
    (entries.set key value).lookup other = entries.lookup other := by
  unfold set
  split
  · exact lookup_replace_of_ne entries value h
  · have hne : (other == key) = false := beq_eq_false_iff_ne.2 h
    simp [List.lookup_append, List.lookup, hne]

/-- A key is had on both sides or on neither. -/
theorem any_eq (h : List.Forall₂ R es fs) (hkey : ∀ e f, R e f → (e.1 = a ↔ f.1 = b)) :
    es.any (·.1 == a) = fs.any (·.1 == b) := by
  induction h with
  | nil => rfl
  | @cons e f es fs hR _ ih =>
    have hhead : (e.1 == a) = (f.1 == b) := Bool.eq_iff_iff.2 (by simpa using hkey e f hR)
    rw [List.any_cons, List.any_cons, hhead, ih]

/-- Setting related values under such a key keeps entries related. -/
theorem forall₂_set (h : List.Forall₂ R es fs) (hkey : ∀ e f, R e f → (e.1 = a ↔ f.1 = b)) {x : α} {y : β}
    (hnew : R (a, x) (b, y)) : List.Forall₂ R (es.set a x) (fs.set b y) := by
  unfold set
  rw [any_eq h hkey]
  split
  · rw [List.forall₂_map_left_iff, List.forall₂_map_right_iff]
    refine h.imp fun e f hR => ?_
    by_cases he : e.1 = a
    · rwa [if_pos (beq_iff_eq.2 he), if_pos (beq_iff_eq.2 ((hkey e f hR).1 he))]
    · have hf : ¬ f.1 = b := fun hf => he ((hkey e f hR).2 hf)
      rwa [if_neg (by simpa using he), if_neg (by simpa using hf)]
  · exact List.rel_append h (.cons hnew .nil)

/-- What is found under such a key is related. -/
theorem lookup_rel (h : List.Forall₂ R es fs) (hkey : ∀ e f, R e f → (e.1 = a ↔ f.1 = b)) :
    es.lookup a = none ∧ fs.lookup b = none ∨
    ∃ e f, R e f ∧ es.lookup a = some e.2 ∧ fs.lookup b = some f.2 := by
  induction h with
  | nil => exact .inl ⟨rfl, rfl⟩
  | @cons e f es fs hR _ ih =>
    by_cases he : e.1 = a
    · have hf : f.1 = b := (hkey e f hR).1 he
      exact .inr ⟨e, f, hR, by simp [List.lookup, he], by simp [List.lookup, hf]⟩
    · have hf : ¬ f.1 = b := fun hf => he ((hkey e f hR).2 hf)
      have hea : (a == e.1) = false := beq_eq_false_iff_ne.2 (Ne.symm he)
      have hfb : (b == f.1) = false := beq_eq_false_iff_ne.2 (Ne.symm hf)
      rwa [List.lookup, List.lookup, hea, hfb]

end Entries

namespace RecordStore

/-! ## Accesses -/

/-- An access to a store. -/
inductive Access where
  | write (key : String) (record : Record)
  | read (key : String)

/-- The key of an access. -/
def Access.key : Access → String
  | write key _ | read key => key

/-- The same access under another key. -/
def Access.rename (f : String → String) : Access → Access
  | write key record => write (f key) record
  | read key => read (f key)

/-- Nothing is renamed by the identity. -/
theorem Access.rename_id (accesses : List Access) : accesses.map (·.rename id) = accesses := by
  refine (List.map_congr_left fun access _ => ?_).trans (List.map_id accesses)
  cases access <;> rfl

/-- What a store answers to an access, and its state after it. A write that fails changes nothing. -/
def step (store : RecordStore σ) (state : σ) : Access → Except StoreError (Option Record) × σ
  | .write key record =>
    match store.write state key record with
    | .ok next => (.ok none, next)
    | .error cause => (.error cause, state)
  | .read key => (store.read state key, state)

/-- What a store answers to accesses one after another. -/
def answers (store : RecordStore σ) : σ → List Access → List (Except StoreError (Option Record))
  | _, [] => []
  | state, access :: rest => (store.step state access).1 :: store.answers (store.step state access).2 rest

/-! ## In memory -/

/-- The record last written under a key; the latest access comes first. -/
def lastWritten? (key : String) : List Access → Option Record
  | [] => none
  | .write other record :: past => if other = key then some record else lastWritten? key past
  | .read _ :: past => lastWritten? key past

/-- What is expected of a store after the given accesses: a write is acknowledged, and a read gives the record that was last
written under that very key. -/
def expected (past : List Access) : List Access → List (Except StoreError (Option Record))
  | [] => []
  | .write key record :: rest => .ok none :: expected (.write key record :: past) rest
  | .read key :: rest => .ok (lastWritten? key past) :: expected (.read key :: past) rest

/-- A store whose entries are the records last written under their keys does what is expected after those accesses. -/
theorem answers_memory_after {entries : Entries Record} {past : List Access}
    (h : ∀ key, entries.lookup key = lastWritten? key past) (accesses : List Access) :
    memory.answers entries accesses = expected past accesses := by
  induction accesses generalizing entries past with
  | nil => rfl
  | cons access rest ih =>
    cases access with
    | write key record =>
      rw [answers, expected]
      refine congrArg _ (ih fun other => ?_)
      by_cases hother : other = key
      · rw [hother, lastWritten?, if_pos rfl]
        exact Entries.lookup_set entries key record
      · rw [lastWritten?, if_neg (Ne.symm hother), ← h other]
        exact Entries.lookup_set_of_ne entries record hother
    | read key =>
      rw [answers, expected, ← h key]
      exact congrArg _ (ih h)

/-- A store that holds the records themselves does what is expected. -/
theorem answers_memory (accesses : List Access) : memory.answers [] accesses = expected [] accesses :=
  answers_memory_after (fun _ => rfl) accesses

/-! ## In files -/

/-- A write whose record can be read back and whose file can be made. -/
def Access.IsStorable : Access → Prop
  | write key record =>
    (fileName key).utf8ByteSize ≤ maxFileName ∧ record.isFinite = true ∧ (∀ e ∈ record.elements, e.transform.HasLayer) ∧
    record.lastModified ≤ maxWord 64
  | read _ => True

instance (access : Access) : Decidable access.IsStorable :=
  match access with
  | .write _ _ => inferInstanceAs (Decidable (_ ∧ _))
  | .read _ => inferInstanceAs (Decidable True)

/-- The text in a file is read as the record in memory, and both are kept under one of the keys. -/
def Keeps (f : String → String) (keys : List String) (file : String × String) (entry : String × Record) : Prop :=
  (∃ key ∈ keys, file.1 = fileName key ∧ entry.1 = f key) ∧ Record.parse? file.2 = some entry.2

variable {f : String → String} {keys : List String} {texts : Entries String} {records : Entries Record}

/-- One access to both stores. -/
theorem step_files (hf : ∀ a ∈ keys, ∀ b ∈ keys, fileName a = fileName b ↔ f a = f b)
    (h : List.Forall₂ (Keeps f keys) texts records) {access : Access} (hkey : access.key ∈ keys)
    (hstorable : access.IsStorable) :
    (files.step texts access).1 = (memory.step records (access.rename f)).1 ∧
    List.Forall₂ (Keeps f keys) (files.step texts access).2 (memory.step records (access.rename f)).2 := by
  have hsame : ∀ file entry, Keeps f keys file entry → (file.1 = fileName access.key ↔ entry.1 = f access.key) := by
    rintro file entry ⟨⟨key, hin, hfile, hentry⟩, -⟩
    rw [hfile, hentry]
    exact hf key hin access.key hkey
  cases access with
  | write key record =>
    obtain ⟨hname, hfinite, hlayers, htime⟩ := hstorable
    have hwrite : files.write texts key record = .ok (texts.set (fileName key) record.render) := if_neg (not_lt.2 hname)
    simp only [step, Access.rename, hwrite]
    refine ⟨rfl, Entries.forall₂_set h hsame ⟨⟨key, hkey, rfl, rfl⟩, ?_⟩⟩
    exact Record.parse?_render_of_isFinite hlayers htime hfinite
  | read key =>
    refine ⟨?_, h⟩
    simp only [step, Access.rename, files, memory]
    rw [Access.key] at hsame
    rcases Entries.lookup_rel h hsame with ⟨htext, hrecord⟩ | ⟨file, entry, ⟨-, hparse⟩, htext, hrecord⟩
    · rw [htext, hrecord]
    · simp only [htext, hrecord, hparse]

/-- The answers of both stores to accesses one after another. -/
theorem answers_files_rename (hf : ∀ a ∈ keys, ∀ b ∈ keys, fileName a = fileName b ↔ f a = f b)
    (h : List.Forall₂ (Keeps f keys) texts records) {accesses : List Access} (hkeys : ∀ a ∈ accesses, a.key ∈ keys)
    (hstorable : ∀ a ∈ accesses, a.IsStorable) :
    files.answers texts accesses = memory.answers records (accesses.map (·.rename f)) := by
  induction accesses generalizing texts records with
  | nil => rfl
  | cons access rest ih =>
    obtain ⟨hkey, hkeys⟩ := List.forall_mem_cons.1 hkeys
    obtain ⟨hfirst, hstorable⟩ := List.forall_mem_cons.1 hstorable
    obtain ⟨hanswer, hnext⟩ := step_files hf h hkey hfirst
    rw [List.map_cons, answers, answers, hanswer, ih hnext hkeys hstorable]

/-- A store of files answers as one in memory does that knows each key by the name of its file: a read gives the record that
was last written under a key with that file name. As long as no two keys have the same file name, it answers as one in memory
does, and a read gives the record that was last written under that very key. -/
theorem answers_files {accesses : List Access} (h : ∀ a ∈ accesses, a.IsStorable) :
    (files.answers [] accesses = memory.answers [] (accesses.map (·.rename fileName)) ∧
      files.answers [] accesses = expected [] (accesses.map (·.rename fileName))) ∧
    ((∀ a ∈ accesses, ∀ b ∈ accesses, fileName a.key = fileName b.key → a.key = b.key) →
      files.answers [] accesses = memory.answers [] accesses ∧ files.answers [] accesses = expected [] accesses) := by
  have hkeys : ∀ a ∈ accesses, a.key ∈ accesses.map (·.key) := fun a ha => List.mem_map_of_mem ha
  have hnamed : files.answers [] accesses = memory.answers [] (accesses.map (·.rename fileName)) :=
    answers_files_rename (fun _ _ _ _ => Iff.rfl) .nil hkeys h
  refine ⟨⟨hnamed, hnamed.trans (answers_memory _)⟩, fun hdistinct => ?_⟩
  have hid : ∀ a ∈ accesses.map (·.key), ∀ b ∈ accesses.map (·.key), fileName a = fileName b ↔ id a = id b := by
    rw [List.forall_mem_map]
    intro a ha
    rw [List.forall_mem_map]
    exact fun b hb => ⟨hdistinct a ha b hb, congrArg fileName⟩
  have hsame : files.answers [] accesses = memory.answers [] accesses := by
    rw [answers_files_rename hid .nil hkeys h, Access.rename_id]
  exact ⟨hsame, hsame.trans (answers_memory _)⟩

/-- An ellipse in a record. -/
def sampleRecord : Record := ⟨[⟨"a", .ellipse, { x := 1, y := 2, width := 3, height := 4 }, [], []⟩], "flowchart TD\n", 5⟩

/-- Accesses under keys with different file names. -/
def apartAccesses : List Access := [.write "user/canvas 1" sampleRecord, .read "canvas", .read "user/canvas 1"]

/-- Under keys with different file names, a read gives what was written under its key, or nothing. -/
theorem answers_files_apart :
    (∀ a ∈ apartAccesses, a.IsStorable) ∧
    (∀ a ∈ apartAccesses, ∀ b ∈ apartAccesses, fileName a.key = fileName b.key → a.key = b.key) ∧
    files.answers [] apartAccesses = [.ok none, .ok none, .ok (some sampleRecord)] := by
  have hstorable : ∀ a ∈ apartAccesses, a.IsStorable := by decide +kernel
  have hdistinct : ∀ a ∈ apartAccesses, ∀ b ∈ apartAccesses, fileName a.key = fileName b.key → a.key = b.key := by
    decide +kernel
  refine ⟨hstorable, hdistinct, ((answers_files hstorable).2 hdistinct).2.trans ?_⟩
  decide +kernel

/-- Accesses under keys with one file name. -/
def sharedAccesses : List Access := [.write "user/a" sampleRecord, .read "user_a"]

/-- What is written under one key is read under another with the same file name. -/
theorem answers_files_shared :
    files.answers [] sharedAccesses = [.ok none, .ok (some sampleRecord)] ∧
    memory.answers [] sharedAccesses = [.ok none, .ok none] := by
  have hkeys : ∀ a ∈ sharedAccesses, a.key ∈ ["user/a", "user_a"] := by simp [sharedAccesses, Access.key]
  have hstorable : ∀ a ∈ sharedAccesses, a.IsStorable := by decide +kernel
  have hfirst : fileName "user/a" = "user_a.json" := by decide +kernel
  have hsecond : fileName "user_a" = "user_a.json" := by decide +kernel
  have hrename : sharedAccesses.map (·.rename fileName) = [.write "user_a.json" sampleRecord, .read "user_a.json"] := by
    simp only [sharedAccesses, List.map_cons, List.map_nil, Access.rename, hfirst, hsecond]
  refine ⟨?_, by decide +kernel⟩
  rw [answers_files_rename (fun _ _ _ _ => Iff.rfl) .nil hkeys hstorable, hrename]
  decide +kernel

end RecordStore

end Whiteboard
