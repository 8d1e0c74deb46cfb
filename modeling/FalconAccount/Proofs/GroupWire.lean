import FalconAccount.GroupReader
import FalconAccount.LogicSig
import FalconAccount.Proofs.MsgpackReading

/-!
# Groups come back off the wire

A signed transaction is written as a map of at most two entries, without its length. The reader still
finds the end of every member, takes the bytes of its transaction exactly, and goes on with the next.
-/

namespace FalconAccount

namespace Msgpack

def EntryFits (entry : String × Value) : Prop :=
  (Bytes.ofString entry.1).length < UInt32.size ∧ entry.2.Fits

/-- At most one entry, and one that fits. -/
def FieldFits (field : List (String × Value)) : Prop :=
  field.length ≤ 1 ∧ ∀ entry ∈ field, EntryFits entry

variable {key : String} {v : Value}

theorem fieldFits_ite {absent : Prop} [Decidable absent] (h : EntryFits (key, v)) :
    FieldFits (if absent then [] else [(key, v)]) := by
  split_ifs
  · exact ⟨Nat.zero_le 1, by simp⟩
  · exact ⟨le_rfl, by simpa using h⟩

section Fields

variable (hk : (Bytes.ofString key).length < UInt32.size)
include hk

theorem uintField_fits (n : UInt64) : FieldFits (uintField key n) :=
  fieldFits_ite ⟨hk, .uint n⟩

theorem strField_fits {text : String} (h : (Bytes.ofString text).length < UInt32.size) :
    FieldFits (strField key text) :=
  fieldFits_ite ⟨hk, .str h⟩

theorem binField_fits {bytes : Bytes} (h : bytes.length < UInt32.size) :
    FieldFits (binField key bytes) :=
  fieldFits_ite ⟨hk, .bin h⟩

theorem digestField_fits {bytes : Bytes} (h : bytes.length < UInt32.size) :
    FieldFits (digestField key bytes) :=
  fieldFits_ite ⟨hk, .bin h⟩

theorem binsField_fits {items : List Bytes} (h : items.length < UInt32.size)
    (hs : ∀ item ∈ items, item.length < UInt32.size) : FieldFits (binsField key items) :=
  fieldFits_ite ⟨hk, .array (by simpa using h) (by simpa using fun b hb => .bin (hs b hb))⟩

theorem mapField_fits {entries : List (String × Value)} (h : (Value.map entries).Fits) :
    FieldFits (mapField key entries) :=
  fieldFits_ite ⟨hk, h⟩

end Fields

theorem fits_map_flatten {fields : List (List (String × Value))} (hn : fields.length < UInt32.size)
    (h : ∀ field ∈ fields, FieldFits field) : (Value.map fields.flatten).Fits := by
  have hlength : fields.flatten.length ≤ fields.length := by
    rw [List.length_flatten]
    simpa using List.sum_le_card_nsmul (fields.map List.length) 1
      (by simpa using fun field hf => (h field hf).1)
  have hentry (entry) (he : entry ∈ fields.flatten) : EntryFits entry := by
    obtain ⟨field, hf, hm⟩ := List.mem_flatten.mp he
    exact (h field hf).2 entry hm
  exact .map (hlength.trans_lt hn) (fun entry he => (hentry entry he).1)
    fun entry he => (hentry entry he).2

end Msgpack

open Msgpack

/-- The note and the genesis name fit into 32-bit headers. -/
structure Transaction.Fits (t : Transaction) : Prop where
  note : t.note.length < UInt32.size
  genesisId : (Bytes.ofString t.genesisId).length < UInt32.size

structure LogicSig.Fits (l : LogicSig) : Prop where
  program : l.program.length < UInt32.size
  args : ∀ arg ∈ l.args, arg.length < UInt32.size
  argCount : l.args.length < UInt32.size

/-- Everything of variable length in a signed transaction fits into 32-bit headers. -/
structure SignedTransaction.Fits (s : SignedTransaction) : Prop where
  txn : s.txn.Fits
  lsig : s.lsig.Fits

theorem Transaction.groupField_fits (group : Option GroupId) : FieldFits (groupField group) := by
  cases group with
  | none => exact ⟨Nat.zero_le 1, by simp [groupField]⟩
  | some id => exact digestField_fits (by decide) (by simp [UInt32.size])

def Transaction.fieldList (t : Transaction) : List (List (String × Value)) :=
  [uintField "amt" t.amount, uintField "fee" t.fee, uintField "fv" t.firstValid,
    strField "gen" t.genesisId, digestField "gh" t.genesisHash.toList, groupField t.group,
    uintField "lv" t.lastValid, binField "note" t.note, digestField "rcv" t.receiver.toList,
    digestField "snd" t.sender.toList, strField "type" paymentType]

theorem Transaction.fields_eq_flatten (t : Transaction) : t.fields = t.fieldList.flatten := by
  simp [fields, fieldList]

def LogicSig.fieldList (l : LogicSig) : List (List (String × Value)) :=
  [binsField "arg" l.args, binField "l" l.program]

theorem LogicSig.fields_eq_flatten (l : LogicSig) : l.fields = l.fieldList.flatten := by
  simp [fields, fieldList]

theorem Transaction.Fits.map_fields {t : Transaction} (h : t.Fits) : (Value.map t.fields).Fits := by
  have hdigest : (32 : ℕ) < UInt32.size := by decide
  rw [t.fields_eq_flatten]
  refine fits_map_flatten (show 11 < UInt32.size by decide) ?_
  simp only [fieldList, List.forall_mem_cons, List.not_mem_nil, false_implies, implies_true, and_true]
  exact ⟨uintField_fits (by decide) _, uintField_fits (by decide) _, uintField_fits (by decide) _,
    strField_fits (by decide) h.genesisId,
    digestField_fits (by decide) (by simpa using hdigest), groupField_fits _,
    uintField_fits (by decide) _, binField_fits (by decide) h.note,
    digestField_fits (by decide) (by rwa [Address.length_toList]),
    digestField_fits (by decide) (by rwa [Address.length_toList]),
    strField_fits (by decide) (by decide)⟩

theorem LogicSig.Fits.map_fields {l : LogicSig} (h : l.Fits) : (Value.map l.fields).Fits := by
  rw [l.fields_eq_flatten]
  refine fits_map_flatten (show 2 < UInt32.size by decide) ?_
  simp only [fieldList, List.forall_mem_cons, List.not_mem_nil, false_implies, implies_true, and_true]
  exact ⟨binsField_fits (by decide) h.argCount h.args, binField_fits (by decide) h.program⟩

def SignedTransaction.fieldList (s : SignedTransaction) : List (List (String × Value)) :=
  [mapField "lsig" s.lsig.fields, mapField "txn" s.txn.fields]

theorem SignedTransaction.fields_eq_flatten (s : SignedTransaction) :
    s.fields = s.fieldList.flatten := by
  simp [fields, fieldList]

theorem SignedTransaction.Fits.map_fields {s : SignedTransaction} (h : s.Fits) :
    (Value.map s.fields).Fits := by
  rw [s.fields_eq_flatten]
  refine fits_map_flatten (show 2 < UInt32.size by decide) ?_
  simp only [fieldList, List.forall_mem_cons, List.not_mem_nil, false_implies, implies_true, and_true]
  exact ⟨mapField_fits (by decide) h.lsig.map_fields, mapField_fits (by decide) h.txn.map_fields⟩

theorem Transaction.fields_ne_nil (t : Transaction) : t.fields ≠ [] := by
  have htype : strField "type" paymentType = [("type", .str paymentType)] := by
    simp [strField, paymentType]
  simp [fields, htype]

theorem SignedTransaction.fields_eq (s : SignedTransaction) :
    s.fields = mapField "lsig" s.lsig.fields ++ [("txn", .map s.txn.fields)] := by
  have hne : s.txn.fields.isEmpty = false := by simpa using s.txn.fields_ne_nil
  rw [fields, mapField, mapField, hne]
  rfl

namespace GroupReader

theorem encodeEntries_append (first second : List (String × Value)) :
    encodeEntries (first ++ second) = encodeEntries first ++ encodeEntries second := by
  simp only [encodeEntries_eq_flatMap, List.flatMap_append]

/-- Reading an entry of a map keeps its value only if the key is that of the transaction. -/
theorem readEntries_encode {key : String} {v : Value} (h : EntryFits (key, v)) (n : ℕ)
    (found : Option Stretch) (rest : Bytes) :
    readEntries (n + 1) found (encodeEntries [(key, v)] ++ rest) =
      readEntries n (if Bytes.ofString key = Bytes.ofString "txn" then some ⟨v.encode ++ rest, rest⟩
        else found) rest := by
  have hentry : encodeEntries [(key, v)] ++ rest = strBytes key ++ (v.encode ++ rest) := by
    simp [encodeEntries]
  rw [hentry, readEntries, readKey_strBytes h.1]
  change (skipValue (v.encode ++ rest) >>= fun after => _) = _
  rw [skipValue_encode h.2]
  rfl

theorem readEntries_signed {s : SignedTransaction} (h : s.Fits) (rest : Bytes) :
    readEntries s.fields.length none (encodeEntries s.fields ++ rest) =
      .ok (some ⟨s.txn.encode ++ rest, rest⟩, rest) := by
  have htxn : EntryFits ("txn", .map s.txn.fields) :=
    ⟨show (Bytes.ofString "txn").length < UInt32.size by decide, h.txn.map_fields⟩
  have hlsig : EntryFits ("lsig", .map s.lsig.fields) :=
    ⟨show (Bytes.ofString "lsig").length < UInt32.size by decide, h.lsig.map_fields⟩
  have hkey : Bytes.ofString "lsig" ≠ Bytes.ofString "txn" := by decide
  rw [s.fields_eq, encodeEntries_append, List.append_assoc, List.length_append]
  unfold mapField
  split_ifs
  · exact readEntries_encode htxn 0 none rest
  · rw [List.length_singleton, List.length_singleton, readEntries_encode hlsig, if_neg hkey]
    exact readEntries_encode htxn 0 none rest

/-- A member is read whole, and the bytes of its transaction are found exactly. -/
theorem readMember_encode {s : SignedTransaction} (h : s.Fits) (rest : Bytes) :
    readMember (s.encode ++ rest) = .ok (some ⟨s.txn.encode ++ rest, rest⟩, rest) := by
  have hcount : s.fields.length < UInt32.size := by
    cases h.map_fields with
    | map hlength _ _ => exact hlength
  rw [SignedTransaction.encode, Value.encode, List.append_assoc, readMember,
    readMapHeader_mapHeader hcount]
  exact readEntries_signed h rest

theorem Stretch.bytes_append (bs rest : Bytes) : Stretch.bytes ⟨bs ++ rest, rest⟩ = bs := by
  simp [Stretch.bytes]

theorem encode_append_ne_nil (s : SignedTransaction) (rest : Bytes) : s.encode ++ rest ≠ [] := by
  rw [SignedTransaction.encode, Value.encode]
  unfold mapHeader
  split_ifs <;> simp [tagged]

theorem readMembers_zero {bs : Bytes} (hne : bs ≠ []) (position : ℕ) :
    readMembers 0 position bs = .error .tooMany := by
  cases bs with
  | nil => exact absurd rfl hne
  | cons b bs => rfl

theorem readMembers_encode {s : SignedTransaction} (h : s.Fits) (room position : ℕ) (rest : Bytes) :
    readMembers (room + 1) position (s.encode ++ rest) =
      (readMembers room (position + ((s.encode ++ rest).length - rest.length)) rest).map
        (s.id :: ·) := by
  have hread := readMember_encode h rest
  have hne := encode_append_ne_nil s rest
  generalize s.encode ++ rest = bs at hread hne ⊢
  cases bs with
  | nil => exact absurd rfl hne
  | cons b bs =>
    rw [readMembers, hread]
    change (readMembers room _ rest >>= fun ids =>
      Except.ok (Transaction.idOfEncoding (Stretch.bytes ⟨s.txn.encode ++ rest, rest⟩) :: ids)) = _
    rw [Stretch.bytes_append]
    cases readMembers room (position + ((b :: bs).length - rest.length)) rest <;> rfl
    simp

/-- Members are read one after another while there is room. -/
theorem readMembers_encodeGroup {group : List SignedTransaction} (h : ∀ s ∈ group, s.Fits)
    (room position : ℕ) :
    readMembers room position (encodeGroup group) =
      if group.length ≤ room then .ok (group.map SignedTransaction.id) else .error .tooMany := by
  induction group generalizing room position with
  | nil => simp [encodeGroup, readMembers]
  | cons s group ih =>
    have hcons : encodeGroup (s :: group) = s.encode ++ encodeGroup group := rfl
    rw [hcons]
    cases room with
    | zero => exact readMembers_zero (encode_append_ne_nil s _) position
    | succ room =>
      rw [readMembers_encode (h s List.mem_cons_self),
        ih fun other hm => h other (List.mem_cons_of_mem s hm)]
      by_cases hroom : group.length ≤ room
      · rw [if_pos hroom, List.length_cons, if_pos (Nat.add_le_add_right hroom 1)]
        rfl
      · rw [if_neg hroom, List.length_cons, if_neg fun hle => hroom (Nat.le_of_succ_le_succ hle)]
        rfl

end GroupReader

/-- A written group is read back: its identifiers in order if it has at most sixteen members, and the
error that it has too many if not. Each member is found whole whatever follows it, and the stretch that
is hashed is the encoding of its transaction. -/
theorem transactionIds_encodeGroup (group : List SignedTransaction) (h : ∀ s ∈ group, s.Fits) :
    (group.length ≤ 16 → transactionIds (encodeGroup group) = .ok (group.map SignedTransaction.id)) ∧
      (16 < group.length → transactionIds (encodeGroup group) = .error .tooMany) ∧
      ∀ s ∈ group, ∀ rest, ∃ body : GroupReader.Stretch,
        GroupReader.readMember (s.encode ++ rest) = .ok (some body, rest) ∧
          body.bytes = s.txn.encode := by
  have hread := GroupReader.readMembers_encodeGroup h maxGroupSize 0
  refine ⟨fun hle => hread.trans (if_pos hle), fun hlt => hread.trans (if_neg hlt.not_ge), ?_⟩
  intro s hs rest
  exact ⟨_, GroupReader.readMember_encode (h s hs) rest,
    GroupReader.Stretch.bytes_append s.txn.encode rest⟩

/-- A member with a long note and no logic signature before one with two arguments, and seventeen
members of the second kind. -/
theorem transactionIds_encodeGroup_mixed :
    let params : SuggestedParams := ⟨0, 1000, 70000, 71000, "testnet-v1.0", Digest.zero⟩
    let bare : SignedTransaction :=
      ⟨.payment .zero .zero 300 (List.replicate 300 7) params, ⟨[], []⟩⟩
    let signed : SignedTransaction := ⟨.payment .zero .zero 0 [] params, ⟨[12, 0], [[], [1]]⟩⟩
    (∀ s ∈ [bare, signed], s.Fits) ∧
      transactionIds (encodeGroup [bare, signed]) = .ok [bare.id, signed.id] ∧
      (∀ s ∈ List.replicate 17 signed, s.Fits) ∧
      transactionIds (encodeGroup (List.replicate 17 signed)) = .error .tooMany := by
  intro params bare signed
  have hnote : bare.txn.note.length < UInt32.size := by
    rw [show bare.txn.note = List.replicate 300 7 from rfl, List.length_replicate]
    decide
  have hbare : bare.Fits := ⟨⟨hnote, by decide⟩, ⟨by decide, by decide, by decide⟩⟩
  have hsigned : signed.Fits :=
    ⟨⟨by decide, by decide⟩, ⟨by decide, by decide, by decide⟩⟩
  have hpair : ∀ s ∈ [bare, signed], s.Fits := by simp [hbare, hsigned]
  have hmany : ∀ s ∈ List.replicate 17 signed, s.Fits := by simp [hsigned]
  exact ⟨hpair, (transactionIds_encodeGroup _ hpair).1 (by decide), hmany,
    (transactionIds_encodeGroup _ hmany).2.1 (by simp)⟩

end FalconAccount
