import Cookbook.Proofs.Checkpoint.Rollback
import Cookbook.Proofs.Digits

/-!
# The order of a log

A new checkpoint gets the id after the highest one in the log. So a log that has got all its
checkpoints that way has the ids 1, 2, 3, …, and since no id comes twice, saving the snapshot of a
new checkpoint replaces none.

Ids are numbers of 64 bits. After the id 2⁶⁴ - 1 none is left and no checkpoint is added, so a log
stays in order whatever is asked of it.

## Main definitions

* `CheckpointLog.Ordered`: ids and parents count, and labels are different.
* `CheckpointLog.Grows`: a log keeps the checkpoints and snapshots of another.

## Main results

* `CheckpointLog.highest_le_iff`, `CheckpointLog.highest_concat`: the highest id, and what it is
  with one checkpoint more.
* `CheckpointLog.Ordered.continued`: a log stays ordered with the checkpoint that comes next.
* `CheckpointLog.Ordered.grows`: and it keeps what it had.
-/

namespace Cookbook

namespace CheckpointLog

variable {l l' l'' : CheckpointLog} {c : Checkpoint} {snaps : NameMap Snapshot} {s : Snapshot}

/-- The checkpoints are numbered from 1 on, each has the one before as its parent, and no two have
one label. -/
structure Ordered (l : CheckpointLog) : Prop where
  ids : l.entries.map (·.id) = (List.range l.entries.length).map fun k => toString (k + 1)
  parents : l.entries.map (·.parent)
    = (List.range l.entries.length).map fun k => if k = 0 then none else some (toString k)
  labels : (l.entries.map (·.label)).Nodup

/-- A log has all checkpoints of another and more at its end at most, and finds the same snapshots. -/
structure Grows (l l' : CheckpointLog) : Prop where
  entries : l.entries <+: l'.entries
  snapshot : ∀ fs id s, l.snapshot fs id = .ok s → l'.snapshot fs id = .ok s

namespace Grows

theorem refl (l : CheckpointLog) : l.Grows l := ⟨List.prefix_refl _, fun _ _ _ h => h⟩

theorem trans (h : l.Grows l') (h' : l'.Grows l'') : l.Grows l'' :=
  ⟨h.entries.trans h'.entries, fun fs id s hs => h'.snapshot fs id s (h.snapshot fs id s hs)⟩

end Grows

/-! ### The highest id -/

theorem foldl_max_le_iff {ns : List Nat} {m k : Nat} :
    ns.foldl max m ≤ k ↔ m ≤ k ∧ ∀ n ∈ ns, n ≤ k := by
  induction ns generalizing m with
  | nil => simp
  | cons n ns ih => rw [List.foldl_cons, ih, Nat.max_le, List.forall_mem_cons, and_assoc]

theorem highest_le_iff {k : Nat} :
    l.highest ≤ k ↔ ∀ d ∈ l.entries, ∀ n, Text.number64? d.id = some n → n ≤ k := by
  rw [highest, foldl_max_le_iff]
  simp only [List.mem_filterMap, forall_exists_index, and_imp, Nat.zero_le, true_and]
  exact ⟨fun h d hd n hn => h n d hd hn, fun h n d hd hn => h d hd n hn⟩

theorem number_le_highest {n : Nat} (hc : c ∈ l.entries) (hn : Text.number64? c.id = some n) :
    n ≤ l.highest := highest_le_iff.mp (Nat.le_refl _) c hc n hn

/-- With the checkpoint that comes next the highest id is its id. -/
theorem highest_concat (h : l'.entries = l.entries ++ [c]) (hc : l.nextId = .ok c.id) :
    l'.highest = l.highest + 1 := by
  obtain ⟨hnumber, hid⟩ := nextId_eq_ok_iff.mp hc
  have hread : Text.number64? c.id = some (l.highest + 1) := by
    rw [hid, newId, Text.number64?_toString hnumber]
  rw [highest, h, List.filterMap_append, List.foldl_append]
  simp only [List.filterMap_cons, hread, List.filterMap_nil, List.foldl_cons, List.foldl_nil]
  exact Nat.max_eq_right (Nat.le_succ _)

/-! ### Logs in order -/

theorem ordered_empty : Ordered {} := ⟨rfl, rfl, List.nodup_nil⟩

namespace Ordered

theorem id_of_mem (h : l.Ordered) (hc : c ∈ l.entries) :
    ∃ k < l.entries.length, c.id = toString (k + 1) := by
  have hid : c.id ∈ l.entries.map (·.id) := List.mem_map_of_mem hc
  rw [h.ids] at hid
  obtain ⟨k, hk, hid⟩ := List.mem_map.mp hid
  exact ⟨k, List.mem_range.mp hk, hid.symm⟩

/-- An ordered log has a number for another checkpoint as long as its length has one. -/
theorem length_lt (h : l.Ordered) (hnumber : l.HasNumber) :
    l.entries.length + 1 < Nat.pow 2 64 := by
  by_contra hmany
  have htwo : 2 ≤ Nat.pow 2 64 := by decide
  have hlast : toString (Nat.pow 2 64 - 1) ∈ l.entries.map (·.id) := by
    rw [h.ids]
    exact List.mem_map.mpr ⟨Nat.pow 2 64 - 2, List.mem_range.mpr (by omega), by decide⟩
  obtain ⟨d, hd, hid⟩ := List.mem_map.mp hlast
  have hle := number_le_highest hd (hid ▸ Text.number64?_toString (by decide))
  have hlt : l.highest + 1 < Nat.pow 2 64 := hnumber
  omega

/-- The highest id is the number of checkpoints. -/
theorem highest_eq (h : l.Ordered) (hfew : l.entries.length < Nat.pow 2 64) :
    l.highest = l.entries.length := by
  refine Nat.le_antisymm (highest_le_iff.mpr fun d hd n hn => ?_) ?_
  · obtain ⟨k, hk, hid⟩ := h.id_of_mem hd
    rw [hid, Text.number64?_toString (by omega)] at hn
    cases hn
    exact hk
  · cases hlength : l.entries.length with
    | zero => exact Nat.zero_le _
    | succ k =>
      have hlast : toString (k + 1) ∈ l.entries.map (·.id) := by
        rw [h.ids]
        exact List.mem_map.mpr ⟨k, List.mem_range.mpr (by omega), rfl⟩
      obtain ⟨d, hd, hid⟩ := List.mem_map.mp hlast
      exact number_le_highest hd (hid ▸ Text.number64?_toString (by omega))

/-- The id of the checkpoint that comes next. -/
theorem id_of_continues (h : l.Ordered) (hc : l.Continues c) :
    c.id = toString (l.entries.length + 1) := by
  obtain ⟨hnumber, hid⟩ := nextId_eq_ok_iff.mp hc.id
  have hfew := h.length_lt hnumber
  rw [hid, newId, h.highest_eq (by omega)]

theorem latest (h : l.Ordered) : l.latest?.map (·.id)
    = if l.entries.length = 0 then none else some (toString l.entries.length) := by
  rw [latest?, ← List.getLast?_map, h.ids, List.getLast?_map, List.getLast?_range]
  cases l.entries.length <;> simp

/-- No checkpoint of the log has the id that comes next. -/
theorem id_ne (h : l.Ordered) (hc : l.Continues c) : ∀ d ∈ l.entries, d.id ≠ c.id := by
  intro d hd
  obtain ⟨k, hk, hid⟩ := h.id_of_mem hd
  rw [hid, h.id_of_continues hc, Ne, Text.toString_inj]
  omega

theorem continued (h : l.Ordered) (hc : l.Continues c) : (l.With snaps c s).Ordered := by
  have hlength : (l.With snaps c s).entries.length = l.entries.length + 1 := List.length_append
  refine ⟨?_, ?_, ?_⟩
  · rw [hlength, List.range_succ, List.map_append, ← h.ids, With, List.map_append, List.map_singleton,
      List.map_singleton, h.id_of_continues hc]
  · rw [hlength, List.range_succ, List.map_append, ← h.parents, With, List.map_append,
      List.map_singleton, List.map_singleton, hc.parent, h.latest]
  · rw [With, List.map_append, List.nodup_append]
    refine ⟨h.labels, List.pairwise_singleton .., ?_⟩
    intro label hlabel d hd heq
    obtain ⟨e, he, rfl⟩ := List.mem_map.mp hlabel
    have hnew := hc.label
    rw [hasLabel, List.any_eq_false] at hnew
    exact hnew e he (by simpa [heq] using hd)

theorem grows (h : l.Ordered) (hl : l.store = .memory snaps) (hc : l.Continues c) :
    l.Grows (l.With snaps c s) := by
  refine ⟨List.prefix_append .., fun fs id t ht => ?_⟩
  obtain ⟨⟨d, hd, rfl⟩, hget⟩ := (snapshot_eq_ok_iff hl).mp ht
  refine (snapshot_eq_ok_iff rfl).mpr ⟨⟨d, List.mem_append_left _ hd, rfl⟩, ?_⟩
  rw [NameMap.get?_insert, if_neg (h.id_ne hc d hd).symm, hget]

end Ordered

end CheckpointLog

end Cookbook
