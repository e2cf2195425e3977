import Cookbook.Proofs.EntityType
import Cookbook.Proofs.NameMap

/-!
# The type that counts for a name

A name that a type owns is its stem, a dot and an id. Of the types that own a name, the one that
counts has the longest stem. Stems are compared by their bytes; but all of them are starts of one
name, so stems of one length are the same stem, whatever characters they have.

A type that is added comes somewhere among those there were. Going through all of them, it may take
the place of one that has counted so far, and then either it stays, or a later one takes over that
would have taken over from the other one too. So the type that counts is the one that was added, or
the one that counted before.

## Main results

* `EntityType.entityId?_eq_some_iff`: the id in a name.
* `EntityType.stem_eq_of_size_eq`: stems of one length are the same stem.
* `EntityTypes.ownerOf?_register`: what a type that is added changes.
* `EntityTypes.longest_owner`: the type that counts for a name, and what changes it.
-/

namespace Cookbook

namespace EntityType

variable {t u : EntityType} {name id : String}

/-- The id in a name is what follows the stem and a dot, and it is not empty. -/
theorem entityId?_eq_some_iff :
    t.entityId? name = some id ↔ id ≠ "" ∧ name = t.stem ++ "." ++ id := by
  have hname : name = t.stem ++ "." ++ id ↔ name.toList = t.stem.toList ++ '.' :: id.toList := by
    rw [← String.toList_inj, String.toList_append, String.toList_append, List.append_assoc]
    rfl
  rw [hname, entityId?, Text.stripStart?]
  constructor
  · intro h
    cases hstart : Text.dropStart? t.stem.toList name.toList with
    | none =>
      rw [hstart] at h
      cases h
    | some after =>
      rw [hstart, Option.map_some, Option.map_some, String.toList_ofList] at h
      split at h
      · rename_i c rest heq
        cases heq
        cases h
        rw [Text.dropStart?_eq_some_iff.mp hstart, String.toList_ofList]
        refine ⟨fun hempty => ?_, rfl⟩
        simpa using congrArg String.toList hempty
      · cases h
  · rintro ⟨hid, hname⟩
    rw [Text.dropStart?_eq_some_iff.mpr hname, Option.map_some, Option.map_some,
      String.toList_ofList]
    cases hchars : id.toList with
    | nil => exact absurd (String.toList_inj.mp hchars) hid
    | cons c rest =>
      exact congrArg some (String.toList_inj.mp (by rw [String.toList_ofList, hchars]))

theorem size_lt_of_covers (h : t.Covers u) : t.stem.utf8ByteSize < u.stem.utf8ByteSize := by
  obtain ⟨more, hmore⟩ := Option.isSome_iff_exists.mp h
  have hstem : u.stem = t.stem ++ "." ++ String.ofList more :=
    String.toList_inj.mp (by simpa using Text.dropStart?_eq_some_iff.mp hmore)
  have hdot : ".".utf8ByteSize = 1 := rfl
  rw [hstem, String.utf8ByteSize_append, String.utf8ByteSize_append]
  omega

/-- Types that own a name and have stems of one length have the same stem. -/
theorem stem_eq_of_size_eq (ht : t.owns name = true) (hu : u.owns name = true)
    (hsize : u.stem.utf8ByteSize = t.stem.utf8ByteSize) : u.stem = t.stem := by
  rcases stem_eq_or_covers ht hu hsize.ge with heq | hcovers
  · exact heq
  · have hlt := size_lt_of_covers hcovers
    omega

end EntityType

namespace EntityTypes

variable {ts : EntityTypes} {t u : EntityType} {name : String}

/-! ### Adding a type -/

/-- What counts when one more type is looked at. -/
def further (best : Option EntityType) (t : EntityType) : Option EntityType :=
  match best with
  | some b => if t.stem.utf8ByteSize < b.stem.utf8ByteSize then some b else some t
  | none => some t

theorem longest_append (l l' : List EntityType) :
    longest (l ++ l') = l'.foldl further (longest l) :=
  List.foldl_append

/-- Whether a type counts at first or one with a stem that is not longer makes no difference in the
end, unless it is that type which counts. -/
theorem foldl_further_of_le (l : List EntityType) {best : Option EntityType}
    (h : ∀ b ∈ best, b.stem.utf8ByteSize ≤ u.stem.utf8ByteSize) :
    l.foldl further (some u) = some u ∨ l.foldl further (some u) = l.foldl further best := by
  induction l generalizing best with
  | nil => exact .inl rfl
  | cons t l ih =>
    rw [List.foldl_cons, List.foldl_cons]
    by_cases hlt : t.stem.utf8ByteSize < u.stem.utf8ByteSize
    · rw [show further (some u) t = some u from if_pos hlt]
      refine ih fun b hb => ?_
      cases best with
      | none =>
        cases hb
        exact hlt.le
      | some b' =>
        rw [further] at hb
        split at hb
        · cases hb
          exact h b rfl
        · cases hb
          exact hlt.le
    · have hnext : further best t = some t := by
        cases best with
        | none => rfl
        | some b => exact if_neg fun hb => hlt (hb.trans_le (h b rfl))
      rw [show further (some u) t = some t from if_neg hlt, hnext]
      exact .inr rfl

/-- Of some types and another one among them, that one counts or the one that counts without it. -/
theorem longest_insert (before after : List EntityType) (u : EntityType) :
    longest (before ++ u :: after) = some u ∨
      longest (before ++ u :: after) = longest (before ++ after) := by
  rw [longest_append, longest_append, List.foldl_cons]
  cases hbest : longest before with
  | none => exact foldl_further_of_le after (by simp)
  | some b =>
    rw [further]
    split
    · exact .inr rfl
    · rename_i hnot
      refine foldl_further_of_le after fun b' hb' => ?_
      cases hb'
      exact Nat.le_of_not_lt hnot

theorem exists_values_register (hnew : ts.get? u.id = none) : ∃ before after,
    ts.values = before ++ after ∧ (ts.register u).values = before ++ u :: after := by
  obtain ⟨before, after, hentries, hinsert⟩ := NameMap.exists_insertEntry (v := u) hnew
  refine ⟨before.map Prod.snd, after.map Prod.snd, ?_, ?_⟩
  · rw [NameMap.values, hentries, List.map_append]
  · change (NameMap.insertEntry u.id u ts.entries).map Prod.snd = _
    rw [hinsert, List.map_append, List.map_cons]

/-- After a type was added, it counts for a name that it owns, or the same one as before does. -/
theorem ownerOf?_register (hnew : ts.get? u.id = none) (name : String) :
    (ts.register u).ownerOf? name = ts.ownerOf? name ∨
      (ts.register u).ownerOf? name = some u ∧ u.owns name = true ∧
        ∀ t, ts.ownerOf? name = some t → t.stem.utf8ByteSize ≤ u.stem.utf8ByteSize := by
  obtain ⟨before, after, hvalues, hregister⟩ := exists_values_register hnew
  cases howns : u.owns name with
  | false =>
    left
    rw [ownerOf?, ownerOf?, hvalues, hregister, List.filter_append, List.filter_append,
      List.filter_cons_of_neg (by simp [howns])]
  | true =>
    have hadded : (ts.register u).ownerOf? name
        = longest (before.filter (·.owns name) ++ u :: after.filter (·.owns name)) := by
      rw [ownerOf?, hregister, List.filter_append, List.filter_cons_of_pos (by simp [howns])]
    have hold : ts.ownerOf? name
        = longest (before.filter (·.owns name) ++ after.filter (·.owns name)) := by
      rw [ownerOf?, hvalues, List.filter_append]
    rcases longest_insert (before.filter (·.owns name)) (after.filter (·.owns name)) u with
      hcounts | hsame
    · refine .inr ⟨hadded.trans hcounts, rfl, fun t ht => ?_⟩
      obtain ⟨hmem, ht⟩ := mem_of_ownerOf? ht
      refine size_le_of_ownerOf? (hadded.trans hcounts) ?_ ht
      rw [hvalues, List.mem_append] at hmem
      rw [hregister, List.mem_append, List.mem_cons]
      exact hmem.imp_right .inr
    · exact .inl (hadded.trans (hsame.trans hold.symm))

/-- A type that is added and owns a name with a longer stem than all others counts for it. -/
theorem ownerOf?_register_of_longer (howns : u.owns name = true)
    (hlonger : ∀ t, ts.ownerOf? name = some t → t.stem.utf8ByteSize < u.stem.utf8ByteSize)
    (hnew : ts.get? u.id = none) : (ts.register u).ownerOf? name = some u := by
  rcases ownerOf?_register hnew name with hsame | ⟨hcounts, -⟩
  · obtain ⟨before, after, -, hregister⟩ := exists_values_register hnew
    have hmem : u ∈ (ts.register u).values :=
      hregister ▸ List.mem_append_right _ List.mem_cons_self
    cases howner : ts.ownerOf? name with
    | none =>
      rw [howner] at hsame
      have hno := ownerOf?_eq_none_iff.mp hsame u hmem
      rw [howns] at hno
      cases hno
    | some t =>
      have hle := size_le_of_ownerOf? (hsame.trans howner) hmem howns
      have hlt := hlonger t howner
      omega
  · exact hcounts

/-! ### The whole -/

/-- **The type that counts for a name.** There is one just if some type owns the name. It has the
longest stem among those that do, and all with a stem of that length have the same one; and the name
is its stem, a dot and an id, which is not empty. Another type that is added can only count itself
for a name that it owns, with a stem that is not shorter than that of the one that counted; and it
does if its stem is longer. -/
theorem longest_owner (ts : EntityTypes) (name : String) :
    ((ts.ownerOf? name).isSome = true ↔ ∃ t ∈ ts.values, t.owns name = true) ∧
    (∀ t, ts.ownerOf? name = some t →
      t ∈ ts.values ∧ t.owns name = true ∧
      (∀ u ∈ ts.values, u.owns name = true →
        u.stem.utf8ByteSize ≤ t.stem.utf8ByteSize ∧
        (u.stem.utf8ByteSize = t.stem.utf8ByteSize → u.stem = t.stem)) ∧
      ∃ id, t.entityId? name = some id ∧ id ≠ "" ∧ name = t.stem ++ "." ++ id) ∧
    ∀ u, ts.get? u.id = none →
      ((ts.register u).ownerOf? name ≠ ts.ownerOf? name →
        (ts.register u).ownerOf? name = some u ∧ u.owns name = true ∧
        ∀ t, ts.ownerOf? name = some t → t.stem.utf8ByteSize ≤ u.stem.utf8ByteSize) ∧
      (u.owns name = true →
        (∀ t, ts.ownerOf? name = some t → t.stem.utf8ByteSize < u.stem.utf8ByteSize) →
        (ts.register u).ownerOf? name = some u) := by
  refine ⟨?_, fun t ht => ?_, fun u hnew => ⟨fun hchanged => ?_, fun howns hlonger => ?_⟩⟩
  · rw [Option.isSome_iff_ne_none, ne_eq, ownerOf?_eq_none_iff]
    simp
  · obtain ⟨hmem, howns⟩ := mem_of_ownerOf? ht
    refine ⟨hmem, howns, fun u hu hu' => ⟨size_le_of_ownerOf? ht hu hu', ?_⟩, ?_⟩
    · exact EntityType.stem_eq_of_size_eq howns hu'
    · obtain ⟨id, hid⟩ := Option.isSome_iff_exists.mp howns
      exact ⟨id, hid, EntityType.entityId?_eq_some_iff.mp hid⟩
  · exact (ownerOf?_register hnew name).resolve_left hchanged
  · exact ownerOf?_register_of_longer howns hlonger hnew

/-- Types whose stems go on from each other. -/
def userTypes : EntityTypes :=
  NameMap.ofList
    [("all", ⟨"all", "user", "user"⟩), ("user_role", ⟨"user_role", "user.role", "user"⟩)]

/-- A type with a stem that goes on with a character of two bytes. -/
def accentedType : EntityType := ⟨"accented", "user.role.é", "user"⟩

/-- A name changes its owner when the type with the longer stem is added. -/
theorem longest_owner_of_accented : ∃ t, userTypes.ownerOf? "user.role.é.x" = some t ∧
    t.entityId? "user.role.é.x" = some "é.x" ∧
    (∀ u ∈ userTypes.values, u.owns "user.role.é.x" = true →
      u.stem.utf8ByteSize ≤ t.stem.utf8ByteSize) ∧
    (userTypes.register accentedType).ownerOf? "user.role.é.x" = some accentedType ∧
    t.stem.utf8ByteSize ≤ accentedType.stem.utf8ByteSize := by
  obtain ⟨hexists, howner, hregister⟩ := longest_owner userTypes "user.role.é.x"
  obtain ⟨t, ht⟩ := Option.isSome_iff_exists.mp (hexists.mpr
    ⟨⟨"user_role", "user.role", "user"⟩, by decide, by decide⟩)
  obtain rfl : t = ⟨"user_role", "user.role", "user"⟩ := Option.some.inj (ht.symm.trans (by decide))
  obtain ⟨hchanged, hlonger⟩ := hregister accentedType (by decide)
  have hadded := hlonger (by decide) fun u hu => by
    cases ht.symm.trans hu
    decide
  obtain ⟨-, -, hle⟩ := hchanged (by rw [hadded, ht]; decide)
  obtain ⟨-, -, hmax, -⟩ := howner _ ht
  exact ⟨_, ht, by decide, fun u hu hu' => (hmax u hu hu').1, hadded, hle _ ht⟩

end EntityTypes

end Cookbook
