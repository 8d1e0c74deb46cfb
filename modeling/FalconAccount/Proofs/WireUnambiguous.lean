import FalconAccount.Proofs.GroupWire
import FalconAccount.Proofs.MsgpackValues
import Mathlib.Data.List.Forall2

/-!
# The wire format is unambiguous

Fields with default values have no entry, and signed transactions follow each other without lengths.
The bytes still say which fields are default, where each transaction ends, and what every field is. One
thing only is not told apart: a stamp of zero bytes and no stamp.
-/

namespace FalconAccount

theorem Bytes.eq_replicate_of_allZero {bs : Bytes} (h : allZero bs = true) :
    bs = List.replicate bs.length 0 := by
  rw [List.eq_replicate_iff]
  refine ⟨rfl, fun b hb => ?_⟩
  simpa using List.all_eq_true.mp h b hb

theorem GroupId.eq_of_toList {id other : GroupId} (h : id.digest.toList = other.digest.toList) :
    id = other :=
  congrArg GroupId.mk (Vector.toList_inj.mp h)

namespace Msgpack

def IsField (key : String) (field : List (String × Value)) : Prop :=
  field = [] ∨ ∃ v, field = [(key, v)]

theorem isField_ite {key : String} {absent : Prop} [Decidable absent] {v : Value} :
    IsField key (if absent then [] else [(key, v)]) := by
  by_cases h : absent
  · exact .inl (if_pos h)
  · exact .inr ⟨v, if_neg h⟩

theorem fst_mem_of_mem_flatten {keys : List String} {fields : List (List (String × Value))}
    (h : List.Forall₂ IsField keys fields) {entry : String × Value} (he : entry ∈ fields.flatten) :
    entry.1 ∈ keys := by
  induction h with
  | nil => cases he
  | @cons key field keys fields hfield _ ih =>
    rcases List.mem_append.mp he with he | he
    · rcases hfield with rfl | ⟨v, rfl⟩
      · cases he
      · rw [List.mem_singleton.mp he]
        exact List.mem_cons_self
    · exact List.mem_cons_of_mem key (ih he)

theorem length_flatten_le {keys : List String} {fields : List (List (String × Value))}
    (h : List.Forall₂ IsField keys fields) : fields.flatten.length ≤ keys.length := by
  induction h with
  | nil => exact le_rfl
  | cons hfield _ ih =>
    rw [List.flatten_cons, List.length_append, List.length_cons]
    rcases hfield with rfl | ⟨v, rfl⟩
    · exact (Nat.zero_add _).trans_le (ih.trans (Nat.le_succ _))
    · rw [List.length_singleton]
      omega

/-- A record with different keys shows each of its fields, also those that have no entry. -/
theorem flatten_inj {keys : List String} (hkeys : keys.Nodup)
    {first second : List (List (String × Value))} (hfirst : List.Forall₂ IsField keys first)
    (hsecond : List.Forall₂ IsField keys second) (h : first.flatten = second.flatten) :
    first = second := by
  induction hfirst generalizing second with
  | nil =>
    cases hsecond
    rfl
  | @cons key field keys fields hfield hfields ih =>
    obtain _ | @⟨_, field', _, fields', hfield', hfields'⟩ := hsecond
    obtain ⟨hnew, hkeys⟩ := List.nodup_cons.mp hkeys
    -- An entry under the first key cannot come from a later field.
    have hlater {fields : List (List (String × Value))} (hf : List.Forall₂ IsField keys fields)
        (v : Value) (rest : List (String × Value)) : fields.flatten ≠ (key, v) :: rest := by
      intro he
      exact hnew (fst_mem_of_mem_flatten hf (he ▸ List.mem_cons_self))
    rw [List.flatten_cons, List.flatten_cons] at h
    rcases hfield with rfl | ⟨v, rfl⟩ <;> rcases hfield' with rfl | ⟨w, rfl⟩
    · rw [ih hkeys hfields' h]
    · exact absurd h (hlater hfields w _)
    · exact absurd h.symm (hlater hfields' v _)
    · obtain ⟨hentry, h⟩ := List.cons.inj h
      rw [hentry, ih hkeys hfields' h]

section Fields

variable {key : String}

theorem ite_field_inj {α : Type} (absent : α → Prop) [DecidablePred absent] (value : α → Value)
    {a b : α} (hvalue : value a = value b → a = b) (habsent : absent a → absent b → a = b)
    (h : (if absent a then [] else [(key, value a)]) = if absent b then [] else [(key, value b)]) :
    a = b := by
  by_cases ha : absent a <;> by_cases hb : absent b
  · exact habsent ha hb
  · simp [ha, hb] at h
  · simp [ha, hb] at h
  · exact hvalue (by simpa [ha, hb] using h)

theorem uintField_inj {m n : UInt64} (h : uintField key m = uintField key n) : m = n :=
  ite_field_inj (· = 0) .uint Value.uint.inj (fun hm hn => hm.trans hn.symm) h

theorem strField_inj {text other : String} (h : strField key text = strField key other) :
    text = other := by
  refine ite_field_inj (String.isEmpty · = true) .str Value.str.inj (fun ht ho => ?_) h
  rw [String.isEmpty_iff.mp ht, String.isEmpty_iff.mp ho]

theorem binField_inj {bytes other : Bytes} (h : binField key bytes = binField key other) :
    bytes = other := by
  refine ite_field_inj (List.isEmpty · = true) .bin Value.bin.inj (fun hb ho => ?_) h
  rw [List.isEmpty_iff.mp hb, List.isEmpty_iff.mp ho]

theorem digestField_inj {bytes other : Bytes} (hlength : bytes.length = other.length)
    (h : digestField key bytes = digestField key other) : bytes = other := by
  refine ite_field_inj (Bytes.allZero · = true) .bin Value.bin.inj (fun hb ho => ?_) h
  rw [Bytes.eq_replicate_of_allZero hb, Bytes.eq_replicate_of_allZero ho, hlength]

theorem binsField_inj {items others : List Bytes} (h : binsField key items = binsField key others) :
    items = others := by
  refine ite_field_inj (List.isEmpty · = true) (fun items => .array (items.map .bin)) (fun hv => ?_)
    (fun hi ho => ?_) h
  · exact List.map_injective_iff.mpr (fun _ _ => Value.bin.inj) (Value.array.inj hv)
  · rw [List.isEmpty_iff.mp hi, List.isEmpty_iff.mp ho]

theorem mapField_inj {entries others : List (String × Value)}
    (h : mapField key entries = mapField key others) : entries = others := by
  refine ite_field_inj (List.isEmpty · = true) .map Value.map.inj (fun he ho => ?_) h
  rw [List.isEmpty_iff.mp he, List.isEmpty_iff.mp ho]

end Fields

end Msgpack

open Msgpack

/-- Equal in every field, except that a stamp of zero bytes counts as none. -/
structure Transaction.SameRecord (t u : Transaction) : Prop where
  unstamped : t.withoutGroup = u.withoutGroup
  stamp : ∀ id : GroupId, id.isZero = false → (t.group = some id ↔ u.group = some id)

structure SignedTransaction.SameRecord (s u : SignedTransaction) : Prop where
  txn : s.txn.SameRecord u.txn
  lsig : s.lsig = u.lsig

namespace Transaction

def keys : List String :=
  ["amt", "fee", "fv", "gen", "gh", "grp", "lv", "note", "rcv", "snd", "type"]

theorem isField_groupField (group : Option GroupId) : IsField "grp" (groupField group) := by
  cases group with
  | none => exact .inl rfl
  | some id => exact isField_ite

theorem forall₂_fieldList (t : Transaction) : List.Forall₂ IsField keys t.fieldList := by
  unfold keys fieldList
  exact .cons isField_ite (.cons isField_ite (.cons isField_ite (.cons isField_ite
    (.cons isField_ite (.cons (isField_groupField _) (.cons isField_ite (.cons isField_ite
    (.cons isField_ite (.cons isField_ite (.cons isField_ite .nil))))))))))

theorem length_fields_le (t : Transaction) : t.fields.length ≤ 11 := by
  rw [fields_eq_flatten]
  exact length_flatten_le t.forall₂_fieldList

theorem groupField_of_isZero {id : GroupId} (h : id.isZero = true) : groupField (some id) = [] := by
  have hdigest : id.digest = Digest.zero := by simpa [GroupId.isZero] using h
  rw [groupField, hdigest]
  decide

theorem isZero_of_allZero {id : GroupId} (h : Bytes.allZero id.digest.toList = true) :
    id.isZero = true := by
  have hlist := Bytes.eq_replicate_of_allZero h
  rw [Vector.length_toList] at hlist
  have hdigest : id.digest = Digest.zero := by
    rw [← Vector.toList_inj, hlist]
    rfl
  simp [GroupId.isZero, hdigest]

theorem groupField_of_not_isZero {id : GroupId} (h : id.isZero = false) :
    groupField (some id) = [("grp", .bin id.digest.toList)] := by
  refine if_neg fun hzero => ?_
  rw [isZero_of_allZero hzero] at h
  cases h

theorem groupField_eq_entry_iff {group : Option GroupId} {id : GroupId} (h : id.isZero = false) :
    groupField group = [("grp", .bin id.digest.toList)] ↔ group = some id := by
  constructor
  · intro hentry
    cases group with
    | none => cases hentry
    | some other =>
      cases hother : other.isZero with
      | true => rw [groupField_of_isZero hother] at hentry; cases hentry
      | false =>
        rw [groupField_of_not_isZero hother] at hentry
        have hlist : other.digest.toList = id.digest.toList := by simpa using hentry
        rw [GroupId.eq_of_toList hlist]
  · rintro rfl
    exact groupField_of_not_isZero h

theorem groupField_eq_nil_or (group : Option GroupId) :
    groupField group = [] ∨ ∃ id : GroupId, id.isZero = false ∧ group = some id := by
  cases group with
  | none => exact .inl rfl
  | some id =>
    cases h : id.isZero with
    | true => exact .inl (groupField_of_isZero h)
    | false => exact .inr ⟨id, h, rfl⟩

theorem groupField_eq_iff {group other : Option GroupId} :
    groupField group = groupField other ↔
      ∀ id : GroupId, id.isZero = false → (group = some id ↔ other = some id) := by
  constructor
  · intro h id hid
    rw [← groupField_eq_entry_iff hid, h, groupField_eq_entry_iff hid]
  · intro h
    rcases groupField_eq_nil_or group with hgroup | ⟨id, hid, rfl⟩
    · rcases groupField_eq_nil_or other with hother | ⟨id, hid, rfl⟩
      · rw [hgroup, hother]
      · rw [(h id hid).mpr rfl]
    · rw [(h id hid).mp rfl]

/-- Payments have one record exactly if they are the same up to a stamp of zero bytes. -/
theorem fields_eq_iff {t u : Transaction} : t.fields = u.fields ↔ t.SameRecord u := by
  have hset (t : Transaction) : t.fieldList = t.withoutGroup.fieldList.set 5 (groupField t.group) := rfl
  constructor
  · intro h
    rw [t.fields_eq_flatten, u.fields_eq_flatten] at h
    have hlist := flatten_inj (by decide) t.forall₂_fieldList u.forall₂_fieldList h
    simp only [fieldList, List.cons.injEq, and_true] at hlist
    obtain ⟨hamt, hfee, hfv, hgen, hgh, hgrp, hlv, hnote, hrcv, hsnd⟩ := hlist
    have hhash := Vector.toList_inj.mp (digestField_inj (by simp) hgh)
    have hreceiver := Address.eq_of_toList
      (digestField_inj (by rw [Address.length_toList, Address.length_toList]) hrcv)
    have hsender := Address.eq_of_toList
      (digestField_inj (by rw [Address.length_toList, Address.length_toList]) hsnd)
    refine ⟨?_, groupField_eq_iff.mp hgrp⟩
    rw [withoutGroup, withoutGroup, uintField_inj hamt, uintField_inj hfee, uintField_inj hfv,
      strField_inj hgen, hhash, uintField_inj hlv, binField_inj hnote, hreceiver, hsender]
  · rintro ⟨hunstamped, hstamp⟩
    rw [t.fields_eq_flatten, u.fields_eq_flatten, hset t, hset u, hunstamped,
      groupField_eq_iff.mpr hstamp]

/-- Payments are written the same exactly if they are the same up to a stamp of zero bytes. -/
theorem encode_eq_iff {t u : Transaction} (ht : t.Fits) (hu : u.Fits) :
    t.encode = u.encode ↔ t.SameRecord u := by
  rw [← fields_eq_iff]
  constructor
  · intro h
    have happend : (Value.map t.fields).encode ++ [] = (Value.map u.fields).encode ++ [] :=
      congrArg (· ++ []) h
    exact Value.map.inj (encode_append_inj ht.map_fields hu.map_fields happend).1
  · intro h
    rw [encode, encode, h]

end Transaction

theorem LogicSig.forall₂_fieldList (l : LogicSig) : List.Forall₂ IsField ["arg", "l"] l.fieldList :=
  .cons isField_ite (.cons isField_ite .nil)

theorem LogicSig.fields_inj {l m : LogicSig} (h : l.fields = m.fields) : l = m := by
  rw [l.fields_eq_flatten, m.fields_eq_flatten] at h
  have hlist := flatten_inj (by decide) l.forall₂_fieldList m.forall₂_fieldList h
  simp only [fieldList, List.cons.injEq, and_true] at hlist
  cases l
  cases m
  rw [LogicSig.mk.injEq]
  exact ⟨binField_inj hlist.2, binsField_inj hlist.1⟩

namespace SignedTransaction

theorem forall₂_fieldList (s : SignedTransaction) :
    List.Forall₂ IsField ["lsig", "txn"] s.fieldList :=
  .cons isField_ite (.cons isField_ite .nil)

theorem fields_eq_iff {s u : SignedTransaction} : s.fields = u.fields ↔ s.SameRecord u := by
  constructor
  · intro h
    rw [s.fields_eq_flatten, u.fields_eq_flatten] at h
    have hlist := flatten_inj (by decide) s.forall₂_fieldList u.forall₂_fieldList h
    simp only [fieldList, List.cons.injEq, and_true] at hlist
    exact ⟨Transaction.fields_eq_iff.mp (mapField_inj hlist.2),
      LogicSig.fields_inj (mapField_inj hlist.1)⟩
  · rintro ⟨htxn, hlsig⟩
    rw [fields, fields, hlsig, Transaction.fields_eq_iff.mpr htxn]

/-- Where a signed transaction ends, and what it is, does not depend on what follows it. -/
theorem encode_append_inj {s u : SignedTransaction} (hs : s.Fits) (hu : u.Fits) {rest other : Bytes}
    (h : s.encode ++ rest = u.encode ++ other) : s.SameRecord u ∧ rest = other := by
  obtain ⟨hvalue, hrest⟩ := Msgpack.encode_append_inj hs.map_fields hu.map_fields h
  exact ⟨fields_eq_iff.mp (Value.map.inj hvalue), hrest⟩

end SignedTransaction

theorem encodeGroup_cons (s : SignedTransaction) (group : List SignedTransaction) :
    encodeGroup (s :: group) = s.encode ++ encodeGroup group := rfl

/-- Two groups are written the same exactly if they have the same length and are the same member by
member, in every field; only a stamp of zero bytes is written like no stamp. -/
theorem encodeGroup_eq_iff (first second : List SignedTransaction) (hfirst : ∀ s ∈ first, s.Fits)
    (hsecond : ∀ s ∈ second, s.Fits) :
    encodeGroup first = encodeGroup second ↔
      List.Forall₂ SignedTransaction.SameRecord first second := by
  constructor
  · intro h
    induction first generalizing second with
    | nil =>
      cases second with
      | nil => exact .nil
      | cons u second =>
        rw [encodeGroup_cons] at h
        exact absurd h.symm (GroupReader.encode_append_ne_nil u _)
    | cons s first ih =>
      cases second with
      | nil =>
        rw [encodeGroup_cons] at h
        exact absurd h (GroupReader.encode_append_ne_nil s _)
      | cons u second =>
        rw [encodeGroup_cons, encodeGroup_cons] at h
        obtain ⟨hs, hfirst⟩ := List.forall_mem_cons.mp hfirst
        obtain ⟨hu, hsecond⟩ := List.forall_mem_cons.mp hsecond
        obtain ⟨hsame, hrest⟩ := SignedTransaction.encode_append_inj hs hu h
        exact .cons hsame (ih second hfirst hsecond hrest)
  · intro h
    clear hfirst hsecond
    induction h with
    | nil => rfl
    | cons hsame _ ih =>
      rw [encodeGroup_cons, encodeGroup_cons, ih, SignedTransaction.encode, SignedTransaction.encode,
        SignedTransaction.fields_eq_iff.mpr hsame]

/-- A stamp of zero bytes and none on the first member, and the members in the other order. -/
theorem encodeGroup_eq_iff_zeroStamp :
    let params : SuggestedParams := ⟨0, 1000, 70000, 71000, "testnet-v1.0", Digest.zero⟩
    let plain : SignedTransaction := ⟨.payment .zero .zero 300 [7] params, ⟨[12, 0], [[], [1]]⟩⟩
    let stamped : SignedTransaction := ⟨plain.txn.withGroup ⟨Digest.zero⟩, plain.lsig⟩
    let other : SignedTransaction := ⟨.payment .zero .zero 0 [] params, ⟨[], []⟩⟩
    encodeGroup [stamped, other] = encodeGroup [plain, other] ∧
      encodeGroup [other, plain] ≠ encodeGroup [plain, other] := by
  intro params plain stamped other
  have hplain : plain.Fits := ⟨⟨by decide, by decide⟩, ⟨by decide, by decide, by decide⟩⟩
  have hstamped : stamped.Fits := ⟨⟨by decide, by decide⟩, ⟨by decide, by decide, by decide⟩⟩
  have hother : other.Fits := ⟨⟨by decide, by decide⟩, ⟨by decide, by decide, by decide⟩⟩
  have hzero : stamped.SameRecord plain := by
    refine ⟨⟨rfl, fun id hid => ⟨fun h => ?_, fun h => by cases h⟩⟩, rfl⟩
    obtain rfl : ⟨Digest.zero⟩ = id := Option.some.inj h
    simp [GroupId.isZero] at hid
  have hsame : other.SameRecord other := ⟨⟨rfl, fun _ _ => Iff.rfl⟩, rfl⟩
  constructor
  · refine (encodeGroup_eq_iff _ _ ?_ ?_).mpr (.cons hzero (.cons hsame .nil))
    · simp [hstamped, hother]
    · simp [hplain, hother]
  · intro h
    obtain _ | ⟨hfirst, -⟩ := (encodeGroup_eq_iff _ _ (by simp [hplain, hother])
      (by simp [hplain, hother])).mp h
    have hamount : (0 : UInt64) = 300 := congrArg Transaction.amount hfirst.txn.unstamped
    exact absurd hamount (by decide)

end FalconAccount
