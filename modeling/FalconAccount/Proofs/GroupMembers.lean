import FalconAccount.Proofs.GroupBinding

/-!
# The members of a group differ

A payment of something has an entry for its amount, before all others; a filler has none, so the two
records differ wherever else they agree. Fillers differ in their numbers. That holds of the members with
their stamps and without them, whatever the parameters, and even if the payment is made to look like a
filler. Two members have one identifier only if their records collide.
-/

namespace FalconAccount

namespace Msgpack

theorem key_eq_of_encode_eq {entry other : String × Value} {entries others : List (String × Value)}
    (hn : (entry :: entries).length < UInt32.size) (hm : (other :: others).length < UInt32.size)
    (hk : (Bytes.ofString entry.1).length < UInt32.size)
    (hl : (Bytes.ofString other.1).length < UInt32.size)
    (h : (Value.map (entry :: entries)).encode = (Value.map (other :: others)).encode) :
    Bytes.ofString entry.1 = Bytes.ofString other.1 := by
  rw [Value.encode, Value.encode] at h
  have hheader := readMapHeader_mapHeader hn (encodeEntries (entry :: entries))
  rw [h, readMapHeader_mapHeader hm] at hheader
  have hentries := (Prod.mk.inj (Except.ok.inj hheader)).2
  rw [encodeEntries, encodeEntries, List.append_assoc, List.append_assoc] at hentries
  have hkey := readKey_strBytes hl (other.2.encode ++ encodeEntries others)
  rw [hentries, readKey_strBytes hk] at hkey
  exact (Prod.mk.inj (Except.ok.inj hkey)).1

/-- Maps written the same that differ at most in one byte string, of the same length, do not differ. -/
theorem bin_eq_of_encode_eq {key : String} {bytes other : Bytes} {before after : List (String × Value)}
    (hlength : bytes.length = other.length)
    (h : (Value.map (before ++ (key, .bin bytes) :: after)).encode =
      (Value.map (before ++ (key, .bin other) :: after)).encode) : bytes = other := by
  have hsplit (bytes : Bytes) : (Value.map (before ++ (key, .bin bytes) :: after)).encode =
      mapHeader (before.length + (after.length + 1)) ++ (encodeEntries before ++
        (strBytes key ++ (binHeader bytes.length ++ (bytes ++ encodeEntries after)))) := by
    rw [Value.encode, GroupReader.encodeEntries_append, encodeEntries, Value.encode, binBytes,
      List.length_append, List.length_cons]
    simp only [List.append_assoc]
  rw [hsplit, hsplit, hlength] at h
  have hbytes := List.append_cancel_left (List.append_cancel_left (List.append_cancel_left
    (List.append_cancel_left h)))
  exact List.append_cancel_right hbytes

end Msgpack

open Msgpack

namespace Transaction

/-- A payment of something is written unlike any payment of nothing: its first key is that of the
amount. -/
theorem encode_ne_of_amount {t u : Transaction} (ht : t.amount ≠ 0) (hu : u.amount = 0) :
    t.encode ≠ u.encode := by
  intro h
  have htail : t.fields = ("amt", .uint t.amount) :: t.fieldList.tail.flatten := by
    rw [fields_eq_flatten, fieldList, uintField, if_neg ht]
    rfl
  obtain ⟨entry, entries, hfields⟩ := List.exists_cons_of_ne_nil u.fields_ne_nil
  -- Without an amount the first entry is one of the others.
  have hentry : entry.1 ∈ keys.tail := by
    have hlater : List.Forall₂ IsField keys.tail u.fieldList.tail := by
      cases u.forall₂_fieldList with
      | cons _ hlater => exact hlater
    have hflatten : u.fields = u.fieldList.tail.flatten := by
      rw [fields_eq_flatten, fieldList, uintField, if_pos hu]
      rfl
    exact fst_mem_of_mem_flatten hlater (hflatten ▸ hfields ▸ List.mem_cons_self)
  have hkeys : ∀ key ∈ keys.tail, (Bytes.ofString key).length < UInt32.size ∧
      Bytes.ofString "amt" ≠ Bytes.ofString key := by decide
  have hsize {v : Transaction} : v.fields.length < UInt32.size :=
    v.length_fields_le.trans_lt (by decide)
  have hlength := @hsize t
  have hlength' := @hsize u
  rw [encode, encode, htail, hfields] at h
  rw [htail] at hlength
  rw [hfields] at hlength'
  exact (hkeys _ hentry).2 (key_eq_of_encode_eq hlength hlength'
    (show (Bytes.ofString "amt").length < UInt32.size by decide) (hkeys _ hentry).1 h)

theorem exists_fields_note (t : Transaction) :
    ∃ before after, ∀ note ≠ [], { t with note := note }.fields =
      before ++ ("note", .bin note) :: after := by
  refine ⟨(t.fieldList.take 7).flatten, (t.fieldList.drop 8).flatten, fun note hne => ?_⟩
  have hnote : binField "note" note = [("note", .bin note)] := by simp [binField, hne]
  simp [fields, fieldList, hnote]

theorem note_eq_of_encode_eq {t : Transaction} {note other : Bytes} (hlength : note.length = other.length)
    (h : { t with note := note }.encode = { t with note := other }.encode) : note = other := by
  by_cases hne : note = []
  · subst hne
    exact (List.eq_nil_of_length_eq_zero hlength.symm).symm
  · have hne' : other ≠ [] := by
      rintro rfl
      exact hne (List.eq_nil_of_length_eq_zero hlength)
    obtain ⟨before, after, hfields⟩ := t.exists_fields_note
    rw [encode, encode, hfields note hne, hfields other hne'] at h
    exact bin_eq_of_encode_eq hlength h

/-- Payments with different records have different identifiers, or their records collide. -/
theorem id_ne_or_collision {t u : Transaction} (h : t.encode ≠ u.encode) :
    t.id ≠ u.id ∨ Collision t.preimage u.preimage := by
  by_cases hid : t.id = u.id
  · refine .inr ⟨fun hpreimage => h (List.append_cancel_left hpreimage), ?_⟩
    rw [← digest_id, ← digest_id, hid]
  · exact .inl hid

end Transaction

namespace TransactionGroup

variable {params : SuggestedParams} {mode : FeeMode} {fillerCount : UInt64} {sender receiver : Address}
  {amount : UInt64} {note : Bytes} {g : TransactionGroup}

theorem encode_filler_ne {i j : ℕ} (hi : i < 256) (hj : j < 256) (hij : i ≠ j) (id : GroupId) :
    ((filler params i).withGroup id).encode ≠ ((filler params j).withGroup id).encode ∧
      (filler params i).encode ≠ (filler params j).encode := by
  have hnumber : UInt8.ofNat i ≠ UInt8.ofNat j := by
    intro h
    apply hij
    have hnat := congrArg UInt8.toNat h
    rwa [UInt8.toNat_ofNat_of_lt' hi, UInt8.toNat_ofNat_of_lt' hj] at hnat
  constructor
  · intro h
    exact hnumber (List.singleton_injective (Transaction.note_eq_of_encode_eq
      (t := (filler params 0).withGroup id) rfl h))
  · intro h
    exact hnumber (List.singleton_injective (Transaction.note_eq_of_encode_eq
      (t := filler params 0) rfl h))

/-- No two records of a group are written the same, with their stamps or without. -/
theorem BuiltFrom.pairwise_encode_ne
    (h : BuiltFrom params mode fillerCount sender receiver amount note g) (ha : amount ≠ 0)
    (hk : fillerCount ≤ 15) :
    g.transactions.Pairwise fun t u =>
      t.encode ≠ u.encode ∧ t.withoutGroup.encode ≠ u.withoutGroup.encode := by
  rw [TransactionGroup.transactions, List.pairwise_cons]
  constructor
  · intro t ht
    obtain ⟨index, -, rfl⟩ := h.of_mem_fillers ht
    rw [h.payment]
    exact ⟨Transaction.encode_ne_of_amount ha rfl, Transaction.encode_ne_of_amount ha rfl⟩
  · rw [h.fillers, fillersOf, List.map_map, List.pairwise_map]
    refine List.Pairwise.imp_of_mem ?_ List.pairwise_lt_range
    intro i j hi hj hij
    have hsmall {i : ℕ} (hi : i ∈ List.range fillerCount.toNat) : i < 256 :=
      ((List.mem_range.mp hi).trans_le (UInt64.le_iff_toNat_le.mp hk)).trans (by decide)
    exact encode_filler_ne (hsmall hi) (hsmall hj) hij.ne g.id

end TransactionGroup

end FalconAccount
