import Cookbook.Proofs.Checkpoint.Listing

/-!
# A checkpoint that cannot be written

A checkpoint is added to a log in a directory in three steps: its snapshot is saved in a file of its
own, the log gets the checkpoint, and the list of checkpoints is written. If the label is in use or
no id is left, or if the first step fails, the log stays as it is. If only the last step fails,
adding the checkpoint fails as well, but the log has it.

The directory does not have it then. A list that is there as a file can be written, so there was
none, and a log that is opened from the directory is empty, whatever the log had before.

## Main definitions

* `CheckpointLog.Stays`: a log answers all questions about checkpoints as before.
* `CheckpointLog.Unlisted`: the snapshot is saved and the list cannot be written.

## Main results

* `CheckpointLog.append_exhausted_iff`: when there is no id for a checkpoint.
* `CheckpointLog.stays_iff_of_append_error`: which failures leave the log as it is.
-/

namespace Cookbook

theorem Snapshot.failsAs_encode (s : Snapshot) : Except.FailsAs Error.IsPlain s.encode := by
  rw [encode]
  dsimp only
  split
  · exact Except.FailsAs.ok _
  · exact Except.FailsAs.error trivial

namespace CheckpointLog

variable {fs fs' : Files} {dir : Path} {l l' : CheckpointLog} {label : String} {s : Snapshot}
  {now : Nat} {e : Error} {f : FileFailure}

/-- A log has the same checkpoints as before: the same entries, the same latest one and the same
labels in use. -/
structure Stays (l l' : CheckpointLog) : Prop where
  entries : l'.entries = l.entries
  latest : l'.latest? = l.latest?
  label : ∀ label, l'.hasLabel label = l.hasLabel label

theorem stays_iff : l.Stays l' ↔ l'.entries = l.entries :=
  ⟨Stays.entries, fun h => ⟨h, by rw [latest?, h, latest?], fun _ => by rw [hasLabel, h, hasLabel]⟩⟩

/-- A checkpoint whose snapshot is saved in a directory, while the list of checkpoints with it
cannot be written. -/
structure Unlisted (fs : Files) (dir : Path) (l : CheckpointLog) (c : Checkpoint) (s : Snapshot)
    (f : FileFailure) : Prop where
  label : l.hasLabel c.label = false
  number : l.HasNumber
  list : ∃ fs', save fs c.id s (.directory dir) = (.ok (), .directory dir, fs') ∧
    fs'.writeText (indexFile dir) (Checkpoint.listText (l.entries ++ [c])) = .error f

theorem save_directory (fs : Files) (id : String) (s : Snapshot) (dir : Path) :
    (save fs id s (.directory dir)).2.1 = .directory dir := by
  rw [save]
  repeat' split
  all_goals rfl

/-- The list of a log in a directory. -/
theorem saveIndex_eq (h : l.store = .directory dir) :
    saveIndex fs l = (match fs.writeText (indexFile dir) (Checkpoint.listText l.entries) with
      | .ok fs => .ok fs
      | .error f => .error (.ofFile f)) := by
  rw [saveIndex, h]
  rfl

/-! ### How adding a checkpoint fails -/

theorem failsAs_save (fs : Files) (id : String) (s : Snapshot) (store : SnapshotStore) :
    Except.FailsAs Error.IsPlain (save fs id s store).1 := by
  unfold save
  split
  · exact Except.FailsAs.ok ()
  · split
    · exact Except.FailsAs.error trivial
    · split
      · rename_i e hencode
        exact Except.FailsAs.error (s.failsAs_encode e hencode)
      · split
        · exact Except.FailsAs.error trivial
        · exact Except.FailsAs.ok ()

theorem failsAs_saveIndex (fs : Files) (l : CheckpointLog) :
    Except.FailsAs Error.IsPlain (saveIndex fs l) := by
  rw [saveIndex]
  split
  · exact Except.FailsAs.ok fs
  · dsimp only
    split
    · exact Except.FailsAs.ok _
    · exact Except.FailsAs.error trivial

/-- With a free label and an id, adding a checkpoint fails only because of the files or the
snapshot. -/
theorem failsAs_append_of_new (hlabel : l.hasLabel label = false) (hnumber : l.HasNumber) :
    Except.FailsAs Error.IsPlain (l.append fs now label s).1 := by
  rw [append_of_new hlabel hnumber]
  have hsave := failsAs_save fs l.newId s l.store
  split
  · rename_i e _ _ hsaved
    rw [hsaved] at hsave
    exact Except.FailsAs.error (hsave e rfl)
  · dsimp only
    split
    · rename_i e hindex
      exact Except.FailsAs.error (failsAs_saveIndex _ _ e hindex)
    · exact Except.FailsAs.ok _

/-- The ids are used up exactly if there is no number after the highest one; a label that is in use
is noticed first. -/
theorem append_exhausted_iff : (l.append fs now label s).1 = .error .idsExhausted ↔
    l.hasLabel label = false ∧ ¬ l.HasNumber := by
  constructor
  · intro h
    rcases l.refuses_or_new label with ⟨e, hrefuses⟩ | ⟨hlabel, hnumber⟩
    · rw [hrefuses.append_eq] at h
      cases h
      cases hrefuses with
      | exhausted hlabel hnumber => exact ⟨hlabel, hnumber⟩
    · exact (failsAs_append_of_new hlabel hnumber _ h).elim
  · rintro ⟨hlabel, hnumber⟩
    rw [(Refuses.exhausted hlabel hnumber).append_eq]

/-! ### What is left of a failure -/

/-- What can become of a log in a directory when a checkpoint is not added: it stays, or it has a
checkpoint that is not listed. -/
theorem append_error_cases (hl : l.store = .directory dir)
    (h : l.append fs now label s = (.error e, l', fs')) :
    (l' = l ∧ ∀ f, ¬ l.Unlisted fs dir (l.next now label) s f) ∨
      ∃ f, l.Unlisted fs dir (l.next now label) s f ∧ e = .ofFile f ∧
        l' = { l with entries := l.entries ++ [l.next now label] } ∧
        fs'.writeText (indexFile dir) (Checkpoint.listText l'.entries) = .error f := by
  rcases l.refuses_or_new label with ⟨e', hrefuses⟩ | ⟨hlabel, hnumber⟩
  · rw [hrefuses.append_eq] at h
    cases h
    refine .inl ⟨rfl, fun f hf => ?_⟩
    cases hrefuses with
    | inUse hlabel => exact Bool.false_ne_true (hf.label.symm.trans hlabel)
    | exhausted _ hnumber => exact hnumber hf.number
  · rw [append_of_new hlabel hnumber, hl] at h
    have hstore := save_directory fs l.newId s dir
    rcases hsave : save fs l.newId s (.directory dir) with ⟨r, store, fs₁⟩
    rw [hsave] at h hstore
    obtain rfl : store = .directory dir := hstore
    cases r with
    | error e' =>
      cases h
      refine .inl ⟨by rw [← hl], fun f hf => ?_⟩
      obtain ⟨fs₂, hsaved, -⟩ := hf.list
      cases hsave.symm.trans hsaved
    | ok u =>
      dsimp only at h
      rw [saveIndex_eq rfl] at h
      cases hwrite : fs₁.writeText (indexFile dir)
          (Checkpoint.listText (l.entries ++ [l.next now label])) with
      | ok fs₂ =>
        rw [hwrite] at h
        cases h
      | error f =>
        rw [hwrite] at h
        cases h
        exact .inr ⟨f, ⟨hlabel, hnumber, fs', hsave, hwrite⟩, rfl, by rw [← hl], hwrite⟩

/-- Where the list cannot be written there is none. -/
theorem open_of_writeText_error {text : String} (h : fs.writeText (indexFile dir) text = .error f) :
    CheckpointLog.open fs dir = .ok { store := .directory dir } := by
  have hfile : fs.isFile (indexFile dir) = false := by
    refine Bool.eq_false_iff.mpr fun hfile => ?_
    obtain ⟨fs', hwrite⟩ := Files.exists_writeText_of_isFile hfile text
    cases h.symm.trans hwrite
  rw [CheckpointLog.open, hfile, if_neg Bool.false_ne_true]

/-- **A failure to add a checkpoint leaves the log as it is**, except for one: if the label is free,
there is an id, the snapshot is saved and only the list of checkpoints cannot be written. Then the
log has the checkpoint at its end, though a log that is opened from the directory has none. -/
theorem stays_iff_of_append_error (hl : l.store = .directory dir)
    (h : l.append fs now label s = (.error e, l', fs')) :
    (l.Stays l' ↔ ¬ ∃ f, l.Unlisted fs dir (l.next now label) s f) ∧
      ∀ f, l.Unlisted fs dir (l.next now label) s f →
        e = .ofFile f ∧ l'.entries = l.entries ++ [l.next now label] ∧
        l'.latest? = some (l.next now label) ∧ l'.hasLabel label = true ∧
        CheckpointLog.open fs' dir = .ok { store := .directory dir } := by
  rcases append_error_cases hl h with ⟨rfl, hlisted⟩ | ⟨f, hunlisted, rfl, rfl, hwrite⟩
  · exact ⟨⟨fun _ ⟨f, hf⟩ => hlisted f hf, fun _ => stays_iff.mpr rfl⟩,
      fun f hf => absurd hf (hlisted f)⟩
  · refine ⟨⟨fun hstays => ?_, fun hno => absurd ⟨f, hunlisted⟩ hno⟩, fun f' hf' => ?_⟩
    · have hlength := congrArg List.length (stays_iff.mp hstays)
      simp at hlength
    · obtain rfl : f = f' := by
        obtain ⟨fs₁, hsave, hwrite⟩ := hunlisted.list
        obtain ⟨fs₂, hsave', hwrite'⟩ := hf'.list
        cases hsave.symm.trans hsave'
        cases hwrite.symm.trans hwrite'
        rfl
      exact ⟨rfl, rfl, by simp [latest?], by simp [hasLabel, next], open_of_writeText_error hwrite⟩

/-! ### An instance -/

/-- Files with a directory in the place of the list of checkpoints. -/
def blockedFiles : Files := { tree := .dir [("cp", .dir [("index.json", .dir [])])] }

/-- The empty log of a directory in these files. -/
def blockedLog : CheckpointLog := { store := .directory ⟨"/cp"⟩ }

/-- There the log has a checkpoint that could not be listed, and is not found again. -/
theorem lost_in_blockedFiles :
    ∃ e l' fs', blockedLog.append blockedFiles 0 "a" NameMap.empty = (.error e, l', fs') ∧
      ¬ blockedLog.Stays l' ∧ e = .ofFile .isDirectory ∧ l'.hasLabel "a" = true ∧
      CheckpointLog.open fs' ⟨"/cp"⟩ = .ok blockedLog := by
  have happend : blockedLog.append blockedFiles 0 "a" NameMap.empty
      = (.error (.ofFile .isDirectory), (blockedLog.append blockedFiles 0 "a" NameMap.empty).2) :=
    Prod.ext (by rfl) rfl
  have hstays : ¬ blockedLog.Stays (blockedLog.append blockedFiles 0 "a" NameMap.empty).2.1 :=
    fun h => Bool.false_ne_true (show false = true from (h.label "a").symm)
  obtain ⟨hiff, hlost⟩ := stays_iff_of_append_error rfl happend
  obtain ⟨f, hf⟩ := not_not.mp (hstays ∘ hiff.mpr)
  obtain ⟨-, -, -, hlabel, hopen⟩ := hlost f hf
  exact ⟨_, _, _, happend, hstays, rfl, hlabel, hopen⟩

end CheckpointLog

end Cookbook
