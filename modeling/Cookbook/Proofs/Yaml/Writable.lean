import Cookbook.ConfigObject
import Cookbook.Proofs.Except
import Cookbook.Proofs.Value.Equality

/-!
# Equal values can be written alike

Some values cannot be written: those with a tag below a tag, and mappings with a single entry whose
key would be taken for a tag. Neither depends on the order of entries or on which not-a-number a
float is, so of two equal values both can be written or none. What is read back from a file can be
written again for that reason, however often.

## Main definitions

* `Yaml.isTagLike`: a value that would be taken for a tag in front of a key.

## Main results

* `Yaml.check_of_same`: a value equal to one that can be written can be written.
* `ConfigObject.exists_encode_of_same`: the same of objects.
-/

namespace Cookbook

namespace Yaml

/-! ### What the check asks -/

/-- Whether a value would be taken for a tag if it were the only key of a mapping. -/
def isTagLike : Value → Bool
  | .tagged .. => true
  | .map [_] => true
  | _ => false

theorem isTagLike_same {k l : Value} (h : k.same l = true) : isTagLike k = isTagLike l := by
  cases k <;> cases l <;> simp only [Value.same, Bool.false_eq_true] at h <;> try rfl
  rename_i xs ys
  rw [Bool.and_eq_true, beq_iff_eq] at h
  match xs, ys, h.1 with
  | [], [], _ => rfl
  | [_], [_], _ => rfl
  | _ :: _ :: _, _ :: _ :: _, _ => rfl

theorem checkEntries_eq_ok_iff {entries : List (Value × Value)} : checkEntries entries = .ok () ↔
    ∀ e ∈ entries, check false e.1 = .ok () ∧ check false e.2 = .ok () := by
  induction entries with
  | nil => simp [checkEntries]
  | cons e rest ih =>
    simp only [checkEntries, Except.bind_eq_ok_iff, ih, List.forall_mem_cons]
    constructor
    · rintro ⟨_, hk, _, hv, hrest⟩
      exact ⟨⟨hk, hv⟩, hrest⟩
    · rintro ⟨⟨hk, hv⟩, hrest⟩
      exact ⟨(), hk, (), hv, hrest⟩

/-- The keys and values of a mapping have to pass, and a single key must not look like a tag. -/
theorem check_map_eq_ok_iff {tagged : Bool} {entries : List (Value × Value)} :
    check tagged (.map entries) = .ok () ↔
      (∀ e ∈ entries, check false e.1 = .ok () ∧ check false e.2 = .ok ()) ∧
        ∀ e, entries = [e] → tagged = false → isTagLike e.1 = false := by
  match entries with
  | [] => simp [check, checkEntries]
  | [(k, v)] =>
    have hboth : (do check false k; check false v) = Except.ok () ↔
        check false k = .ok () ∧ check false v = .ok () := by
      rw [Except.bind_eq_ok_iff]
      exact ⟨fun ⟨_, hk, hv⟩ => ⟨hk, hv⟩, fun ⟨hk, hv⟩ => ⟨(), hk, hv⟩⟩
    simp only [List.mem_singleton, forall_eq, List.cons.injEq, and_true, forall_eq']
    conv => lhs; unfold check
    split
    · simp [isTagLike]
    · simp [isTagLike]
    · rename_i htag hmap
      rw [hboth]
      refine ⟨fun h => ⟨h, ?_⟩, And.left⟩
      rintro rfl
      unfold isTagLike
      split
      · exact absurd rfl (htag _ _ rfl)
      · exact absurd rfl (hmap _ rfl)
      · rfl
  | e :: f :: rest => 
    rw [check, checkEntries_eq_ok_iff]
    · simp
    · simp

theorem check_tagged_eq_ok_iff {tagged : Bool} {t : String} {v : Value} :
    check tagged (.tagged t v) = .ok () ↔ (∀ s w, v ≠ .tagged s w) ∧ check true v = .ok () := by
  conv => lhs; unfold check
  split
  · simp
  · rename_i h
    exact ⟨fun hcheck => ⟨h, hcheck⟩, And.right⟩

/-! ### Equal values -/

mutual

theorem check_of_same : ∀ {u v : Value} {tagged : Bool}, u.same v = true →
    check tagged v = .ok () → check tagged u = .ok ()
  | u, v, tagged, h, hv => by
    cases u <;> cases v <;> simp only [Value.same, Bool.false_eq_true] at h <;> try exact hv
    · exact checkItems_of_same h hv
    · rename_i xs ys
      rw [Bool.and_eq_true, beq_iff_eq] at h
      rw [check_map_eq_ok_iff] at hv ⊢
      have hentries := checkEntries_of_same h.2 hv.1
      refine ⟨fun e he => (hentries e he).2, ?_⟩
      rintro e rfl htagged
      obtain ⟨f, rfl⟩ := List.length_eq_one_iff.mp h.1.symm
      obtain ⟨⟨f', hf', hsame⟩, -⟩ := hentries e (List.mem_singleton_self e)
      rw [List.mem_singleton.mp hf'] at hsame
      rw [isTagLike_same hsame]
      exact hv.2 f rfl htagged
    · rename_i s x t y
      rw [Bool.and_eq_true] at h
      rw [check_tagged_eq_ok_iff] at hv ⊢
      refine ⟨?_, check_of_same h.2 hv.2⟩
      rintro s' w rfl
      cases y <;> simp only [Value.same, Bool.false_eq_true, and_false] at h
      exact hv.1 _ _ rfl

theorem checkItems_of_same : ∀ {xs ys : List Value}, Value.sameItems xs ys = true →
    checkItems ys = .ok () → checkItems xs = .ok ()
  | [], _, _, _ => by rw [checkItems]
  | x :: xs, [], h, _ => by simp [Value.sameItems] at h
  | x :: xs, y :: ys, h, hv => by
    rw [Value.sameItems, Bool.and_eq_true] at h
    rw [checkItems, Except.bind_eq_ok_iff] at hv ⊢
    obtain ⟨_, hy, hys⟩ := hv
    exact ⟨(), check_of_same h.1 hy, checkItems_of_same h.2 hys⟩

/-- Each entry has its partner, by which its key and value can be written. -/
theorem checkEntries_of_same : ∀ {xs ys : List (Value × Value)}, Value.sameEntries xs ys = true →
    (∀ e ∈ ys, check false e.1 = .ok () ∧ check false e.2 = .ok ()) →
      ∀ e ∈ xs, (∃ f ∈ ys, e.1.same f.1 = true) ∧
        check false e.1 = .ok () ∧ check false e.2 = .ok ()
  | [], _, _, _ => by simp
  | (k, v) :: xs, ys, h, hys => by
    rw [Value.sameEntries, Bool.and_eq_true, List.any_eq_true] at h
    obtain ⟨⟨f, hf, hsame⟩, hrest⟩ := h
    rw [Bool.and_eq_true] at hsame
    exact List.forall_mem_cons.mpr ⟨⟨⟨f, hf, hsame.1⟩, check_of_same hsame.1 (hys f hf).1,
      check_of_same hsame.2 (hys f hf).2⟩, checkEntries_of_same hrest hys⟩

end

end Yaml

namespace ConfigObject

variable {o p : ConfigObject}

/-- An object can be written if its mapping passes the check. -/
theorem exists_encode_iff :
    (∃ text, ConfigObject.encode o = .ok text) ↔ Yaml.check false o.toValue = .ok () := by
  rw [encode, Yaml.print]
  cases Yaml.check false o.toValue with
  | error e =>
    constructor
    · rintro ⟨_, ⟨⟩⟩
    · rintro ⟨⟩
  | ok u => exact ⟨fun _ => rfl, fun _ => ⟨_, rfl⟩⟩

/-- An object equal to one that can be written can be written as well. -/
theorem exists_encode_of_same (h : p.same o = true) (ho : ∃ text, ConfigObject.encode o = .ok text) :
    ∃ text, ConfigObject.encode p = .ok text :=
  exists_encode_iff.mpr (Yaml.check_of_same h (exists_encode_iff.mp ho))

end ConfigObject

end Cookbook
