import Cookbook.Action.Core
import Cookbook.Proofs.NameMap
import Cookbook.Proofs.Value.Equality

/-!
# Building well-formed mappings

Mappings are built by putting values under keys, and a key that is there keeps its place. So no
operation here can bring a key in twice: if what is put in is well-formed, the result is.

## Main results

* `Mapping.isWellFormed_insert`, `Mapping.isWellFormed_insertAll`: putting values in.
* `Mapping.isWellFormed_ofNames`: a mapping of names that are all different.
* `Mapping.isWellFormed_setKeys`: putting a value where keys lead to.
-/

namespace Cookbook

namespace Mapping

variable {m n : Mapping} {k v : Value} {name : String}

/-- The keys after putting a value under a key are those from before, and the key. -/
theorem mem_insertEntry {es : List (Value × Value)} {e : Value × Value}
    (h : e ∈ insertEntry k v es) : e = (k, v) ∨ (∃ w, (e.1, w) ∈ es) ∧ (e.2 = v ∨ e ∈ es) := by
  induction es with
  | nil =>
    rw [insertEntry, List.mem_singleton] at h
    exact .inl h
  | cons f es ih =>
    rw [insertEntry] at h
    split at h
    · rcases List.mem_cons.mp h with rfl | h
      · exact .inr ⟨⟨f.2, List.mem_cons_self ..⟩, .inl rfl⟩
      · exact .inr ⟨⟨e.2, List.mem_cons_of_mem _ h⟩, .inr (List.mem_cons_of_mem _ h)⟩
    · rcases List.mem_cons.mp h with rfl | h
      · exact .inr ⟨⟨e.2, List.mem_cons_self ..⟩, .inr (List.mem_cons_self ..)⟩
      · refine (ih h).imp id ?_
        rintro ⟨⟨w, hw⟩, he⟩
        exact ⟨⟨w, List.mem_cons_of_mem _ hw⟩, he.imp id (List.mem_cons_of_mem _)⟩

theorem pairwise_insertEntry {es : List (Value × Value)}
    (h : es.Pairwise fun e f => e.1.same f.1 = false) :
    (insertEntry k v es).Pairwise fun e f => e.1.same f.1 = false := by
  induction es with
  | nil => exact List.pairwise_singleton ..
  | cons e es ih =>
    rw [List.pairwise_cons] at h
    rw [insertEntry]
    split
    · exact List.pairwise_cons.mpr ⟨h.1, h.2⟩
    · rename_i hne
      refine List.pairwise_cons.mpr ⟨fun f hf => ?_, ih h.2⟩
      rcases mem_insertEntry hf with rfl | ⟨⟨w, hw⟩, -⟩
      · simpa using hne
      · exact h.1 (f.1, w) hw

theorem isWellFormed_insert (hm : m.isWellFormed = true) (hk : k.isWellFormed = true)
    (hv : v.isWellFormed = true) : (m.insert k v).isWellFormed = true := by
  rw [isWellFormed_iff] at hm ⊢
  refine ⟨fun e he => ?_, pairwise_insertEntry hm.2⟩
  rcases mem_insertEntry he with rfl | ⟨⟨w, hw⟩, hvalue⟩
  · exact ⟨hk, hv⟩
  · refine ⟨(hm.1 _ hw).1, ?_⟩
    rcases hvalue with rfl | hmem
    · exact hv
    · exact (hm.1 e hmem).2

theorem isWellFormed_insertName (hm : m.isWellFormed = true) (hv : v.isWellFormed = true) :
    (m.insertName name v).isWellFormed = true :=
  isWellFormed_insert hm rfl hv

/-- The keys stay as they are if the name is one of them. -/
theorem keys_insertName (h : m.containsName name = true) : (m.insertName name v).keys = m.keys := by
  obtain ⟨es⟩ := m
  rw [containsName, getName?, get?, Option.isSome_map, List.find?_isSome] at h
  show (insertEntry (.string name) v es).map Prod.fst = es.map Prod.fst
  induction es with
  | nil =>
    obtain ⟨e, he, -⟩ := h
    cases he
  | cons e es ih =>
    rw [insertEntry]
    split
    · rfl
    · rename_i hne
      obtain ⟨f, hf, hsame⟩ := h
      have hf : f ∈ es := (List.mem_cons.mp hf).resolve_left fun heq => hne (heq ▸ hsame)
      rw [List.map_cons, List.map_cons, ih ⟨f, hf, hsame⟩]

theorem isWellFormed_insertAll (hm : m.isWellFormed = true) (hn : n.isWellFormed = true) :
    (m.insertAll n).isWellFormed = true := by
  rw [isWellFormed_iff] at hn
  rw [insertAll]
  obtain ⟨es⟩ := n
  have hvalues := hn.1
  clear hn
  dsimp only at hvalues ⊢
  induction es generalizing m with
  | nil => exact hm
  | cons e es ih =>
    have he := hvalues e (List.mem_cons_self ..)
    exact ih (isWellFormed_insert hm he.1 he.2) fun f hf => hvalues f (List.mem_cons_of_mem _ hf)

/-- A mapping from names that are all different. -/
theorem isWellFormed_ofNames {l : List (String × Value)} (hnames : (l.map Prod.fst).Nodup)
    (hvalues : ∀ e ∈ l, e.2.isWellFormed = true) : (ofNames l).isWellFormed = true := by
  refine isWellFormed_iff.mpr ⟨?_, ?_⟩
  · intro e he
    obtain ⟨f, hf, rfl⟩ := List.mem_map.mp he
    exact ⟨rfl, hvalues f hf⟩
  · rw [ofNames, List.pairwise_map]
    refine (List.pairwise_map.mp hnames).imp fun hne => ?_
    simpa [Value.same] using hne

/-! ### Nested places -/

theorem isWellFormed_of_inner? (hm : m.isWellFormed = true) (h : m.inner? name = some n) :
    n.isWellFormed = true := by
  rw [inner?] at h
  split at h
  · rename_i entries heq
    cases h
    exact isWellFormed_of_getName? hm heq
  · split at h
    · cases h
    · cases h
      rfl
  · cases h
    rfl

theorem isWellFormed_setKeys (hm : m.isWellFormed = true) (hv : v.isWellFormed = true)
    (keys : List String) : (m.setKeys keys v).isWellFormed = true := by
  induction keys generalizing m with
  | nil => exact hm
  | cons key rest ih =>
    cases rest with
    | nil => exact isWellFormed_insertName hm hv
    | cons key' rest =>
      rw [setKeys]
      split
      · exact hm
      · rename_i child hchild
        exact isWellFormed_insertName hm (ih (isWellFormed_of_inner? hm hchild))
      · simp

end Mapping

end Cookbook
