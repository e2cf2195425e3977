import Cookbook.Proofs.Checkpoint.Listing
import Cookbook.Proofs.Storage.Backends

/-!
# A log in a directory and a log in memory

The same calls are made to two logs: one in a directory that was empty at first, which may be
dropped and opened again before any of them, and one in memory. Both give the same, apart from the
times that they note, which are those of two clocks here.

What the log in a directory has in hand is a list of checkpoints, what it finds in its files are
texts, and memory has the snapshots themselves. So the snapshots have to come back equal from their
texts. One that has no text is the one difference: memory takes it and a directory does not.
`LogCall.checked` is the call of memory that refuses it too, when the label is new and there is an
id for the checkpoint.

## The invariant

`CheckpointLog.Twins` relates the two logs: they list the same checkpoints but for their times, and
the directory has all of them on file, so that it does not matter whether it is opened again. Every
call keeps this and gives the same on both sides.

## Main definitions

* `LogCall`, `LogAnswer`: what is asked of a log, and what it gives.
* `LogAnswer.Alike`: answers that are the same but for times.
* `LogStep.inDirectory`, `LogStep.inMemory`: the answers to calls in a row.

## Main results

* `CheckpointLog.Twins.open_eq`: the log that is opened again is the log that was dropped.
* `CheckpointLog.Twins.matches_perform`: one call on both sides.
* `LogStep.inDirectory_as_inMemory`: any calls, with the log opened again at any points.
-/

namespace Cookbook

/-- A checkpoint without its time. -/
def Checkpoint.untimed (c : Checkpoint) : Checkpoint := { c with timestamp := 0 }

theorem Checkpoint.id_untimed (c : Checkpoint) : c.untimed.id = c.id := rfl

/-- What is asked of a log. -/
inductive LogCall where
  /-- Add a checkpoint. -/
  | append (label : String) (s : Snapshot)
  /-- The snapshot of a checkpoint. -/
  | snapshot (id : String)
  /-- The checkpoint of an id. -/
  | get (id : String)
  /-- The latest checkpoint. -/
  | latest
  /-- Whether a label is in use. -/
  | hasLabel (label : String)

/-- What a log gives. -/
inductive LogAnswer where
  /-- A checkpoint. -/
  | checkpoint (c : Checkpoint)
  /-- A snapshot. -/
  | snapshot (s : Snapshot)
  /-- A checkpoint, if there is one. -/
  | latest (c : Option Checkpoint)
  /-- Yes or no. -/
  | truth (b : Bool)

/-- Answers that are the same but for times. -/
inductive LogAnswer.Alike : LogAnswer → LogAnswer → Prop where
  /-- Checkpoints. -/
  | checkpoint {c d : Checkpoint} (h : c.untimed = d.untimed) :
    Alike (.checkpoint c) (.checkpoint d)
  /-- Equal snapshots. -/
  | snapshot {s t : Snapshot} (h : s.same t = true) : Alike (.snapshot s) (.snapshot t)
  /-- Latest checkpoints. -/
  | latest {c d : Option Checkpoint} (h : c.map Checkpoint.untimed = d.map Checkpoint.untimed) :
    Alike (.latest c) (.latest d)
  /-- Yes or no. -/
  | truth (b : Bool) : Alike (.truth b) (.truth b)

namespace LogCall

/-- Make a call at some time: what it gives, and the log and the files after it. -/
def perform (fs : Files) (now : UInt64) (l : CheckpointLog) :
    LogCall → Except Error LogAnswer × CheckpointLog × Files
  | append label s =>
    let (r, l, fs) := l.append fs now.toNat label s
    (r.map .checkpoint, l, fs)
  | snapshot id => ((l.snapshot fs id).map .snapshot, l, fs)
  | get id => ((l.get id).map .checkpoint, l, fs)
  | latest => (.ok (.latest l.latest?), l, fs)
  | hasLabel label => (.ok (.truth (l.hasLabel label)), l, fs)

/-- A call that refuses a snapshot that has no text, as a directory does. -/
def checked (fs : Files) (now : UInt64) (l : CheckpointLog) :
    LogCall → Except Error LogAnswer × CheckpointLog × Files
  | append label s =>
    if l.hasLabel label then (append label s).perform fs now l
    else match l.nextId, s.encode with
      | .ok _, .error e => (.error e, l, fs)
      | _, _ => (append label s).perform fs now l
  | call => call.perform fs now l

/-- What a call adds comes back equal from its text, if it has one. -/
def ReadsBack : LogCall → Prop
  | append _ s => s.ReadsBack
  | _ => True

end LogCall

/-- A step of two logs: a call, at the time of the one and at the time of the other, or the log in
the directory is dropped and opened again. -/
inductive LogStep where
  /-- Make a call. -/
  | call (c : LogCall) (now later : UInt64)
  /-- Open the log again. -/
  | reopen

namespace LogStep

/-- The answers of a log in a directory, unless it cannot be opened again. -/
def inDirectory (dir : Path) (fs : Files) (l : CheckpointLog) :
    List LogStep → Except Error (List (Except Error LogAnswer))
  | [] => .ok []
  | call c now _ :: steps => do
    let (answer, l, fs) := c.perform fs now l
    return answer :: (← inDirectory dir fs l steps)
  | reopen :: steps => do inDirectory dir fs (← CheckpointLog.open fs dir) steps

/-- The answers of a log in memory, by a way to make calls. -/
def inMemory (make : Files → UInt64 → CheckpointLog → LogCall →
      Except Error LogAnswer × CheckpointLog × Files) (fs : Files) (l : CheckpointLog) :
    List LogStep → List (Except Error LogAnswer)
  | [] => []
  | call c _ later :: steps =>
    let (answer, l, fs) := make fs later l c
    answer :: inMemory make fs l steps
  | reopen :: steps => inMemory make fs l steps

/-- What a step adds comes back equal from its text, if it has one. -/
def ReadsBack : LogStep → Prop
  | call c _ _ => c.ReadsBack
  | reopen => True

end LogStep

/-! ### Logs that list the same checkpoints -/

namespace CheckpointLog

/-- Two logs list the same checkpoints but for their times. -/
def ListsAs (l m : CheckpointLog) : Prop :=
  l.entries.map Checkpoint.untimed = m.entries.map Checkpoint.untimed

namespace ListsAs

variable {l m : CheckpointLog}

theorem isEmpty_eq (h : l.ListsAs m) : l.entries.isEmpty = m.entries.isEmpty := by
  have hempty := congrArg List.isEmpty h
  simpa using hempty

theorem hasLabel_eq (h : l.ListsAs m) (label : String) : l.hasLabel label = m.hasLabel label := by
  have hany := congrArg (List.any · (·.label == label)) h
  rwa [List.any_map, List.any_map] at hany

theorem highest_eq (h : l.ListsAs m) : l.highest = m.highest := by
  have hids := congrArg (List.filterMap fun c => Text.number64? c.id) h
  rw [List.filterMap_map, List.filterMap_map] at hids
  exact congrArg (List.foldl max 0) hids

theorem newId_eq (h : l.ListsAs m) : l.newId = m.newId := by rw [newId, h.highest_eq, newId]

theorem hasNumber_iff (h : l.ListsAs m) : l.HasNumber ↔ m.HasNumber := by
  rw [HasNumber, h.highest_eq, HasNumber]

theorem latest_eq (h : l.ListsAs m) :
    l.latest?.map Checkpoint.untimed = m.latest?.map Checkpoint.untimed := by
  rw [latest?, latest?, ← List.getLast?_map, ← List.getLast?_map, h]

theorem get_alike (h : l.ListsAs m) (id : String) : Except.Alike (fun _ => True)
    (fun c d => c ∈ l.entries ∧ c.untimed = d.untimed) (l.get id) (m.get id) := by
  have hfind : (l.entries.find? (·.id == id)).map Checkpoint.untimed
      = (m.entries.find? (·.id == id)).map Checkpoint.untimed := by
    have hboth := congrArg (List.find? (·.id == id)) h
    rwa [List.find?_map, List.find?_map] at hboth
  rw [get, get]
  cases hl : l.entries.find? (·.id == id) with
  | none =>
    rw [hl, Option.map_none, eq_comm, Option.map_eq_none_iff] at hfind
    rw [hfind]
    exact .error trivial
  | some c =>
    rw [hl, Option.map_some, eq_comm, Option.map_eq_some_iff] at hfind
    obtain ⟨d, hd, heq⟩ := hfind
    rw [hd]
    exact .ok ⟨List.mem_of_find?_eq_some hl, heq.symm⟩

theorem concat (h : l.ListsAs m) {c d : Checkpoint} (hcd : c.untimed = d.untimed)
    (store store' : SnapshotStore) :
    ListsAs { entries := l.entries ++ [c], store }
      { entries := m.entries ++ [d], store := store' } := by
  rw [ListsAs] at h ⊢
  simp only [List.map_append, List.map_singleton, h, hcd]

theorem next_untimed (h : l.ListsAs m) (now later : Nat) (label : String) :
    (l.next now label).untimed = (m.next later label).untimed := by
  have hparent := congrArg (Option.map Checkpoint.id) h.latest_eq
  rw [Option.map_map, Option.map_map] at hparent
  simp only [next, Checkpoint.untimed, h.newId_eq, Checkpoint.mk.injEq, true_and]
  exact hparent

end ListsAs

/-- A log in a directory, which has all of it on file, and a log in memory, with the same
checkpoints but for their times. -/
structure Twins (dir : Path) (fs : Files) (l m : CheckpointLog) : Prop where
  room : HasRoom fs
  store : l.store = .directory dir
  lists : l.ListsAs m
  filed : ∃ place t snaps, fs.Seat dir place t ∧ m.store = .memory snaps ∧ Filed t l.entries snaps

namespace Twins

variable {dir : Path} {fs fs' : Files} {l m : CheckpointLog} {c d : Checkpoint}

/-- Nothing is lost when the log is dropped and opened again. -/
theorem open_eq (h : Twins dir fs l m) : CheckpointLog.open fs dir = .ok l := by
  obtain ⟨place, t, snaps, hseat, -, hfiled⟩ := h.filed
  rw [hfiled.open_eq h.room hseat, ← h.store]

/-- Both logs find equal snapshots, or none. -/
theorem snapshot_alike (h : Twins dir fs l m) (fs' : Files) (id : String) :
    Except.Alike (fun _ => True) (fun s t : Snapshot => s.same t = true)
      (l.snapshot fs id) (m.snapshot fs' id) := by
  obtain ⟨place, t, snaps, hseat, hstore, hfiled⟩ := h.filed
  rw [snapshot, snapshot, h.lists.isEmpty_eq, h.store, hstore]
  split
  · exact .error trivial
  · refine (h.lists.get_alike id).bind fun c d hcd => ?_
    obtain ⟨s, text, hs, htext, s', hdecode, hsame⟩ := hfiled.exists_readText h.room hseat hcd.1
    have hid : c.id = d.id := by rw [← c.id_untimed, hcd.2, d.id_untimed]
    rw [← hid]
    simp only [hs, htext, hdecode]
    exact .ok hsame

end Twins

/-- Two calls, one of each log, give the same but for times and leave logs with the same
checkpoints. -/
def Matches (dir : Path) (x y : Except Error LogAnswer × CheckpointLog × Files) : Prop :=
  Except.Alike (fun _ => True) LogAnswer.Alike x.1 y.1 ∧ Twins dir x.2.2 x.2.1 y.2.1

namespace Twins

variable {dir : Path} {fs fs' : Files} {l m : CheckpointLog}

theorem matches_append (h : Twins dir fs l m) {label : String} {s : Snapshot} (hs : s.ReadsBack)
    (fs' : Files) (now later : UInt64) :
    Matches dir ((LogCall.append label s).perform fs now l)
      ((LogCall.append label s).checked fs' later m) := by
  obtain ⟨place, t, snaps, hseat, hstore, hfiled⟩ := h.filed
  cases hlabel : l.hasLabel label with
  | true =>
    have hlabel' : m.hasLabel label = true := h.lists.hasLabel_eq label ▸ hlabel
    simp only [LogCall.checked, LogCall.perform, append, hlabel, hlabel', if_true]
    exact ⟨.error trivial, h⟩
  | false =>
    have hlabel' : m.hasLabel label = false := h.lists.hasLabel_eq label ▸ hlabel
    by_cases hnumber : l.HasNumber
    case neg =>
      have hnumber' : ¬ m.HasNumber := fun hm => hnumber (h.lists.hasNumber_iff.mpr hm)
      simp only [LogCall.checked, LogCall.perform, (Refuses.exhausted hlabel hnumber).append_eq,
        hlabel', nextId_of_exhausted hnumber', (Refuses.exhausted hlabel' hnumber').append_eq]
      exact ⟨.error trivial, h⟩
    have hnumber' : m.HasNumber := h.lists.hasNumber_iff.mp hnumber
    cases hencode : s.encode with
    | error e =>
      simp only [LogCall.checked, LogCall.perform, hlabel', nextId_of_hasNumber hnumber', hencode,
        append_of_encode_error hseat h.store hlabel hnumber hencode]
      exact ⟨.error trivial, h⟩
    | ok text =>
      obtain ⟨fs₁, t₁, happend, hroom, hseat₁, hfiled₁⟩ := hfiled.exists_append h.room hseat h.store
        hlabel hnumber hencode (hs text hencode) now
      have happend' : m.append fs' later.toNat label s = (.ok (m.next later.toNat label),
          m.With snaps (m.next later.toNat label) s, fs') := by
        rw [append_of_new hlabel' hnumber', hstore]
        rfl
      have huntimed := h.lists.next_untimed now.toNat later.toNat label
      simp only [LogCall.checked, LogCall.perform, hlabel', nextId_of_hasNumber hnumber', hencode,
        happend, happend']
      rw [h.lists.newId_eq] at hfiled₁
      exact ⟨.ok (.checkpoint huntimed), hroom, rfl, h.lists.concat huntimed _ _,
        place, t₁, _, hseat₁, rfl, hfiled₁⟩

/-- A call of the log in the directory and the checked one of the log in memory go alike. -/
theorem matches_perform (h : Twins dir fs l m) {call : LogCall} (hcall : call.ReadsBack)
    (fs' : Files) (now later : UInt64) :
    Matches dir (call.perform fs now l) (call.checked fs' later m) := by
  cases call with
  | append label s => exact h.matches_append hcall fs' now later
  | snapshot id => exact ⟨(h.snapshot_alike fs' id).map fun s t hst => .snapshot hst, h⟩
  | get id => exact ⟨(h.lists.get_alike id).map fun c d hcd => .checkpoint hcd.2, h⟩
  | latest => exact ⟨.ok (.latest h.lists.latest_eq), h⟩
  | hasLabel label =>
    rw [LogCall.checked, LogCall.perform, LogCall.perform, h.lists.hasLabel_eq]
    · exact ⟨.ok (.truth _), h⟩
    · simp

end Twins

/-- An empty directory and an empty log in memory. -/
theorem twins_empty {dir : Path} {fs : Files} (hroom : HasRoom fs)
    (hdir : fs.get dir = .ok (.dir [])) : Twins dir fs { store := .directory dir } {} := by
  obtain ⟨place, hseat⟩ := Files.exists_seat hdir
  exact ⟨hroom, rfl, rfl, place, .dir [], NameMap.empty, hseat, rfl, filed_empty⟩

end CheckpointLog

/-! ### Calls in a row -/

namespace LogStep

open CheckpointLog

variable {dir : Path} {fs : Files} {l m : CheckpointLog} {steps : List LogStep}

theorem exists_inDirectory (h : Twins dir fs l m) (hsteps : ∀ step ∈ steps, step.ReadsBack)
    (fs' : Files) : ∃ answers, inDirectory dir fs l steps = .ok answers ∧
      List.Forall₂ (Except.Alike (fun _ => True) LogAnswer.Alike) answers
        (inMemory LogCall.checked fs' m steps) := by
  induction steps generalizing fs l m fs' with
  | nil => exact ⟨[], rfl, .nil⟩
  | cons step steps ih =>
    obtain ⟨hstep, hrest⟩ := List.forall_mem_cons.mp hsteps
    cases step with
    | reopen =>
      obtain ⟨answers, hanswers, halike⟩ := ih h hrest fs'
      refine ⟨answers, ?_, halike⟩
      rw [inDirectory, h.open_eq]
      exact hanswers
    | call c now later =>
      obtain ⟨hanswer, htwins⟩ := h.matches_perform hstep fs' now later
      obtain ⟨answers, hanswers, halike⟩ := ih htwins hrest (c.checked fs' later m).2.2
      refine ⟨(c.perform fs now l).1 :: answers, ?_, .cons hanswer halike⟩
      rw [inDirectory]
      exact Except.bind_eq_ok_iff.mpr ⟨answers, hanswers, rfl⟩

/-- Calls to a log in a directory that was empty, opened again at any points between them, and to a
log in memory that refuses what cannot be written, give the same but for times. -/
theorem inDirectory_as_inMemory (hroom : HasRoom fs) (hdir : fs.get dir = .ok (.dir []))
    (hsteps : ∀ step ∈ steps, step.ReadsBack) (fs' : Files) :
    ∃ l answers, CheckpointLog.open fs dir = .ok l ∧ inDirectory dir fs l steps = .ok answers ∧
      List.Forall₂ (Except.Alike (fun _ => True) LogAnswer.Alike) answers
        (inMemory LogCall.checked fs' {} steps) := by
  have htwins := twins_empty hroom hdir
  obtain ⟨answers, hanswers, halike⟩ := exists_inDirectory htwins hsteps fs'
  exact ⟨_, answers, htwins.open_eq, hanswers, halike⟩

/-! ### Instances -/

/-- Files with an empty directory. -/
def emptyFiles : Files where
  tree := .dir [("d", .dir [])]

/-- A snapshot with one object. -/
def notes : Snapshot := Storage.putObject NameMap.empty "" "core.note" Edit.note

theorem readsBack_notes : notes.ReadsBack := by
  have hread : ∀ text, Snapshot.encode notes = .ok text →
      ∃ s, Snapshot.decode text = .ok s ∧ s.same notes = true := by decide +kernel
  exact hread

/-- Checkpoints are made and looked at, and the log is opened again twice. -/
def noteSteps : List LogStep :=
  [.call (.snapshot "1") 0 0, .call (.append "first" notes) 5 50, .reopen,
    .call (.append "first" notes) 6 60, .call (.append "second" notes) 7 70, .reopen,
    .call .latest 8 80, .call (.snapshot "1") 8 80, .call (.get "3") 8 80,
    .call (.hasLabel "second") 8 80]

theorem answers_to_noteSteps :
    (HasRoom emptyFiles ∧ emptyFiles.get ⟨"/d"⟩ = .ok (.dir []) ∧
      ∀ step ∈ noteSteps, step.ReadsBack) ∧
    ∃ l answers, CheckpointLog.open emptyFiles ⟨"/d"⟩ = .ok l ∧
      inDirectory ⟨"/d"⟩ emptyFiles l noteSteps = .ok answers ∧
      List.Forall₂ (Except.Alike (fun _ => True) LogAnswer.Alike) answers
        [.error .noCheckpoints, .ok (.checkpoint ⟨"1", "first", 50, none⟩),
          .error (.checkpointExists "first"), .ok (.checkpoint ⟨"2", "second", 70, some "1"⟩),
          .ok (.latest (some ⟨"2", "second", 70, some "1"⟩)), .ok (.snapshot notes),
          .error (.unknownCheckpoint "3"), .ok (.truth true)] := by
  have hroom : HasRoom emptyFiles := by simp [HasRoom, emptyFiles]
  have hsteps : ∀ step ∈ noteSteps, step.ReadsBack := by
    simp [noteSteps, LogStep.ReadsBack, LogCall.ReadsBack, readsBack_notes]
  exact ⟨⟨hroom, rfl, hsteps⟩, inDirectory_as_inMemory hroom rfl hsteps {}⟩

/-- A snapshot that has no text. -/
def unwritable : Snapshot := Storage.putObject NameMap.empty "" "a" Edit.keyedByMapping

/-- Without the check the two differ: memory takes a snapshot that a directory refuses. -/
theorem directory_refuses_unwritable :
    HasRoom emptyFiles ∧ emptyFiles.get ⟨"/d"⟩ = .ok (.dir []) ∧ unwritable.ReadsBack ∧
    ¬ ∃ l answers, CheckpointLog.open emptyFiles ⟨"/d"⟩ = .ok l ∧
      inDirectory ⟨"/d"⟩ emptyFiles l [.call (.append "a" unwritable) 0 0] = .ok answers ∧
      List.Forall₂ (Except.Alike (fun _ => True) LogAnswer.Alike) answers
        (inMemory LogCall.perform {} {} [.call (.append "a" unwritable) 0 0]) := by
  have hroom : HasRoom emptyFiles := by simp [HasRoom, emptyFiles]
  have hencode : unwritable.encode = .error (.ofYaml .ambiguousKey) := rfl
  have hreads : unwritable.ReadsBack := by
    intro text htext
    rw [hencode] at htext
    cases htext
  have htwins : Twins ⟨"/d"⟩ emptyFiles { store := .directory ⟨"/d"⟩ } {} := twins_empty hroom rfl
  have hrefused : inMemory LogCall.checked {} {} [.call (.append "a" unwritable) 0 0]
      = [.error (.ofYaml .ambiguousKey)] := rfl
  have htaken : inMemory LogCall.perform {} {} [.call (.append "a" unwritable) 0 0]
      = [.ok (.checkpoint ⟨"1", "a", 0, none⟩)] := rfl
  refine ⟨hroom, rfl, hreads, ?_⟩
  rintro ⟨l, answers, hopen, hanswers, halike⟩
  rw [htwins.open_eq, Except.ok.injEq] at hopen
  have hsteps : ∀ step ∈ [LogStep.call (.append "a" unwritable) 0 0], step.ReadsBack :=
    List.forall_mem_singleton.mpr hreads
  obtain ⟨answers', hanswers', hrefusal⟩ := exists_inDirectory htwins hsteps {}
  rw [← hopen, hanswers', Except.ok.injEq] at hanswers
  rw [hanswers, hrefused] at hrefusal
  rw [htaken] at halike
  -- the one answer of the directory is a failure and belongs with a checkpoint
  cases hrefusal with
  | cons hfailed =>
    cases hfailed
    cases halike with
    | cons hmade => cases hmade

end LogStep

end Cookbook
