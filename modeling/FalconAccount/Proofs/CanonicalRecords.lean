import FalconAccount.Proofs.MsgpackShortest
import FalconAccount.Proofs.WireUnambiguous

/-!
# The wire format is canonical

A record has one form on the wire. Its entries are listed in the order of their keys, an entry is there
exactly if its field is not default, and every header is the shortest one. A signed transaction keeps to
this at both of its depths, and the transaction in it is written as it is alone.
-/

namespace FalconAccount

namespace Msgpack

/-- A map in the order of its keys, with these entries and no others. -/
def IsRecord (carries : String → Value → Prop) (v : Value) : Prop :=
  ∃ entries, v = .map entries ∧ entries.Pairwise KeyBefore ∧
    ∀ key w, (key, w) ∈ entries ↔ carries key w

/-- One canonical map with these entries, and nothing after it. -/
def IsCanonicalRecord (carries : String → Value → Prop) (bytes : Bytes) : Prop :=
  ∃ v, readValue bytes = some (v, []) ∧ IsCanonical v bytes ∧ IsRecord carries v

theorem KeyBefore.asymm {first second : String × Value} (h : KeyBefore first second) :
    ¬KeyBefore second first :=
  List.lt_asymm h

theorem nodup_of_pairwise {entries : List (String × Value)} (h : entries.Pairwise KeyBefore) :
    entries.Nodup := by
  apply h.imp
  intro entry other hbefore he
  rw [he] at hbefore
  exact hbefore.asymm hbefore

theorem eq_of_pairwise {first second : List (String × Value)} (hfirst : first.Pairwise KeyBefore)
    (hsecond : second.Pairwise KeyBefore) (h : ∀ entry, entry ∈ first ↔ entry ∈ second) :
    first = second := by
  have hperm : first.Perm second :=
    (List.perm_ext_iff_of_nodup (nodup_of_pairwise hfirst) (nodup_of_pairwise hsecond)).mpr h
  apply hperm.eq_of_pairwise _ hfirst hsecond
  intro entry other _ _ hbefore hafter
  exact absurd hafter hbefore.asymm

/-- The fields of a record that are there are in the order in which all of them are listed. -/
theorem pairwise_flatten {keys : List String}
    (hkeys : keys.Pairwise fun first second => Bytes.ofString first < Bytes.ofString second)
    {fields : List (List (String × Value))} (h : List.Forall₂ IsField keys fields) :
    fields.flatten.Pairwise KeyBefore := by
  induction h with
  | nil => exact .nil
  | @cons key field keys fields hfield hfields ih =>
    obtain ⟨hfirst, hkeys⟩ := List.pairwise_cons.mp hkeys
    rw [List.flatten_cons]
    rcases hfield with rfl | ⟨v, rfl⟩
    · exact ih hkeys
    · exact .cons (fun entry he => hfirst _ (fst_mem_of_mem_flatten hfields he)) (ih hkeys)

section Records

variable {carries : String → Value → Prop} {v w : Value}

theorem IsRecord.unique (hv : IsRecord carries v) (hw : IsRecord carries w) : v = w := by
  obtain ⟨first, rfl, hfirst, hmem⟩ := hv
  obtain ⟨second, rfl, hsecond, hmem'⟩ := hw
  rw [eq_of_pairwise hfirst hsecond fun entry => (hmem _ _).trans (hmem' _ _).symm]

theorem isRecord_of_eq_flatten {keys : List String}
    (hkeys : keys.Pairwise fun first second => Bytes.ofString first < Bytes.ofString second)
    {entries : List (String × Value)} {fields : List (List (String × Value))}
    (he : entries = fields.flatten) (h : List.Forall₂ IsField keys fields)
    (hmem : ∀ key w, (key, w) ∈ entries ↔ carries key w) : IsRecord carries (.map entries) := by
  subst he
  exact ⟨fields.flatten, rfl, pairwise_flatten hkeys h, hmem⟩

theorem IsRecord.isOrdered (h : IsRecord carries v) (hs : ∀ key w, carries key w → w.IsOrdered) :
    v.IsOrdered := by
  obtain ⟨entries, rfl, horder, hmem⟩ := h
  exact .map horder fun entry he => hs entry.1 entry.2 ((hmem _ _).mp he)

theorem IsRecord.isCanonicalRecord_encode (h : IsRecord carries v) (ho : v.IsOrdered) (hf : v.Fits) :
    IsCanonicalRecord carries v.encode := by
  have hread := readValue_encode hf []
  rw [List.append_nil] at hread
  exact ⟨v, hread, hf.isCanonical_encode ho, h⟩

end Records

section Fields

variable {key name : String} {w : Value}

theorem mem_field_iff {absent : Prop} [Decidable absent] {v : Value} :
    (name, w) ∈ (if absent then [] else [(key, v)]) ↔ ¬absent ∧ name = key ∧ w = v := by
  by_cases h : absent <;> simp [h]

theorem mem_uintField_iff {n : UInt64} :
    (name, w) ∈ uintField key n ↔ n ≠ 0 ∧ name = key ∧ w = .uint n :=
  mem_field_iff

theorem mem_strField_iff {text : String} :
    (name, w) ∈ strField key text ↔ text ≠ "" ∧ name = key ∧ w = .str text := by
  rw [strField, mem_field_iff, String.isEmpty_iff]

theorem mem_binField_iff {bytes : Bytes} :
    (name, w) ∈ binField key bytes ↔ bytes ≠ [] ∧ name = key ∧ w = .bin bytes := by
  rw [binField, mem_field_iff, List.isEmpty_iff]

theorem mem_digestField_iff {bytes : Bytes} :
    (name, w) ∈ digestField key bytes ↔ (∃ b ∈ bytes, b ≠ 0) ∧ name = key ∧ w = .bin bytes := by
  rw [digestField, mem_field_iff]
  simp [Bytes.allZero]

theorem mem_binsField_iff {items : List Bytes} :
    (name, w) ∈ binsField key items ↔ items ≠ [] ∧ name = key ∧ w = .array (items.map .bin) := by
  rw [binsField, mem_field_iff, List.isEmpty_iff]

theorem mem_mapField_iff {entries : List (String × Value)} :
    (name, w) ∈ mapField key entries ↔ entries ≠ [] ∧ name = key ∧ w = .map entries := by
  rw [mapField, mem_field_iff, List.isEmpty_iff]

end Fields

end Msgpack

open Msgpack

namespace Transaction

/-- The entries of a payment: its type, and each field that is not default. -/
inductive Carries (t : Transaction) : String → Value → Prop
  | amount (h : t.amount ≠ 0) : Carries t "amt" (.uint t.amount)
  | fee (h : t.fee ≠ 0) : Carries t "fee" (.uint t.fee)
  | firstValid (h : t.firstValid ≠ 0) : Carries t "fv" (.uint t.firstValid)
  | genesisId (h : t.genesisId ≠ "") : Carries t "gen" (.str t.genesisId)
  | genesisHash (h : ∃ b ∈ t.genesisHash.toList, b ≠ 0) : Carries t "gh" (.bin t.genesisHash.toList)
  | group {id : GroupId} (hgroup : t.group = some id) (h : ∃ b ∈ id.digest.toList, b ≠ 0) :
    Carries t "grp" (.bin id.digest.toList)
  | lastValid (h : t.lastValid ≠ 0) : Carries t "lv" (.uint t.lastValid)
  | note (h : t.note ≠ []) : Carries t "note" (.bin t.note)
  | receiver (h : ∃ b ∈ t.receiver.toList, b ≠ 0) : Carries t "rcv" (.bin t.receiver.toList)
  | sender (h : ∃ b ∈ t.sender.toList, b ≠ 0) : Carries t "snd" (.bin t.sender.toList)
  | type : Carries t "type" (.str "pay")

variable {t : Transaction} {key : String} {v : Value}

theorem Carries.isOrdered (h : t.Carries key v) : v.IsOrdered := by
  cases h <;> constructor

theorem mem_groupField_iff {group : Option GroupId} :
    (key, v) ∈ groupField group ↔
      ∃ id, group = some id ∧ (∃ b ∈ id.digest.toList, b ≠ 0) ∧ key = "grp" ∧
        v = .bin id.digest.toList := by
  cases group with
  | none => simp [groupField]
  | some id => simp [groupField, mem_digestField_iff]

theorem mem_fields_iff : (key, v) ∈ t.fields ↔ t.Carries key v := by
  simp only [fields, List.mem_append, or_assoc, mem_uintField_iff, mem_strField_iff,
    mem_binField_iff, mem_digestField_iff, mem_groupField_iff]
  constructor
  · rintro (⟨h, rfl, rfl⟩ | ⟨h, rfl, rfl⟩ | ⟨h, rfl, rfl⟩ | ⟨h, rfl, rfl⟩ | ⟨h, rfl, rfl⟩ |
      ⟨id, hgroup, h, rfl, rfl⟩ | ⟨h, rfl, rfl⟩ | ⟨h, rfl, rfl⟩ | ⟨h, rfl, rfl⟩ | ⟨h, rfl, rfl⟩ |
      ⟨-, rfl, rfl⟩)
    exacts [.amount h, .fee h, .firstValid h, .genesisId h, .genesisHash h, .group hgroup h,
      .lastValid h, .note h, .receiver h, .sender h, .type]
  · intro h
    cases h with
    | genesisHash h => simpa using h
    | group hgroup h => simpa [hgroup] using h
    | type => simp [paymentType]
    | _ h => simp [h]

theorem isRecord_fields (t : Transaction) : IsRecord t.Carries (.map t.fields) :=
  isRecord_of_eq_flatten (by decide) t.fields_eq_flatten t.forall₂_fieldList
    fun _ _ => mem_fields_iff

end Transaction

namespace LogicSig

/-- The entries of a logic signature: its arguments and its program, unless there are none. -/
inductive Carries (l : LogicSig) : String → Value → Prop
  | args (h : l.args ≠ []) : Carries l "arg" (.array (l.args.map .bin))
  | program (h : l.program ≠ []) : Carries l "l" (.bin l.program)

variable {l : LogicSig} {key : String} {v : Value}

theorem Carries.isOrdered (h : l.Carries key v) : v.IsOrdered := by
  cases h with
  | args _ => exact .array (by simpa using fun arg _ => .bin arg)
  | program _ => exact .bin l.program

theorem mem_fields_iff : (key, v) ∈ l.fields ↔ l.Carries key v := by
  simp only [fields, List.mem_append, mem_binsField_iff, mem_binField_iff]
  constructor
  · rintro (⟨h, rfl, rfl⟩ | ⟨h, rfl, rfl⟩)
    exacts [.args h, .program h]
  · rintro (h | h) <;> simp [h]

theorem isRecord_fields (l : LogicSig) : IsRecord l.Carries (.map l.fields) :=
  isRecord_of_eq_flatten (by decide) l.fields_eq_flatten l.forall₂_fieldList
    fun _ _ => mem_fields_iff

theorem fields_ne_nil_iff : l.fields ≠ [] ↔ l.args ≠ [] ∨ l.program ≠ [] := by
  constructor
  · intro h
    obtain ⟨⟨key, v⟩, he⟩ := List.exists_mem_of_ne_nil _ h
    cases mem_fields_iff.mp he with
    | args h => exact .inl h
    | program h => exact .inr h
  · rintro (h | h)
    · exact List.ne_nil_of_mem (mem_fields_iff.mpr (.args h))
    · exact List.ne_nil_of_mem (mem_fields_iff.mpr (.program h))

end LogicSig

namespace SignedTransaction

/-- The entries of a signed transaction: its logic signature, unless that is empty, and its
transaction. -/
inductive Carries (s : SignedTransaction) : String → Value → Prop
  | lsig {v : Value} (h : s.lsig.args ≠ [] ∨ s.lsig.program ≠ []) (hv : IsRecord s.lsig.Carries v) :
    Carries s "lsig" v
  | txn {v : Value} (hv : IsRecord s.txn.Carries v) : Carries s "txn" v

variable {s : SignedTransaction} {key : String} {v : Value}

theorem Carries.isOrdered (h : s.Carries key v) : v.IsOrdered := by
  cases h with
  | lsig _ hv => exact hv.isOrdered fun _ _ => LogicSig.Carries.isOrdered
  | txn hv => exact hv.isOrdered fun _ _ => Transaction.Carries.isOrdered

theorem mem_fields_iff : (key, v) ∈ s.fields ↔ s.Carries key v := by
  rw [fields, List.mem_append, mem_mapField_iff, mem_mapField_iff, LogicSig.fields_ne_nil_iff]
  constructor
  · rintro (⟨h, rfl, rfl⟩ | ⟨-, rfl, rfl⟩)
    · exact .lsig h s.lsig.isRecord_fields
    · exact .txn s.txn.isRecord_fields
  · intro h
    cases h with
    | lsig h hv => exact .inl ⟨h, rfl, hv.unique s.lsig.isRecord_fields⟩
    | txn hv => exact .inr ⟨s.txn.fields_ne_nil, rfl, hv.unique s.txn.isRecord_fields⟩

theorem isRecord_fields (s : SignedTransaction) : IsRecord s.Carries (.map s.fields) :=
  isRecord_of_eq_flatten (by decide) s.fields_eq_flatten s.forall₂_fieldList
    fun _ _ => mem_fields_iff

end SignedTransaction

/-- A payment is written as one canonical map: its entries are those of the fields that are not default,
in the order of their keys, and every header is the shortest. So is a signed one, at every depth, and the
bytes of the transaction in it are those of the transaction alone. -/
theorem canonical_encoding :
    (∀ t : Transaction, t.Fits → IsCanonicalRecord t.Carries t.encode) ∧
      ∀ s : SignedTransaction, s.Fits →
        IsCanonicalRecord s.Carries s.encode ∧
          ∃ body, GroupReader.readMember s.encode = .ok (some body, []) ∧
            body.bytes = s.txn.encode := by
  constructor
  · intro t h
    have hordered := t.isRecord_fields.isOrdered fun _ _ => Transaction.Carries.isOrdered
    exact t.isRecord_fields.isCanonicalRecord_encode hordered h.map_fields
  · intro s h
    have hordered := s.isRecord_fields.isOrdered fun _ _ => SignedTransaction.Carries.isOrdered
    have hread := GroupReader.readMember_encode h []
    rw [List.append_nil] at hread
    exact ⟨s.isRecord_fields.isCanonicalRecord_encode hordered h.map_fields, _, hread, by
      simpa using GroupReader.Stretch.bytes_append s.txn.encode []⟩

/-- A stamped payment with a note, and the same payment with a logic signature of two arguments. -/
theorem canonical_encoding_stamped :
    let params : SuggestedParams := ⟨0, 1000, 70000, 71000, "testnet-v1.0", Digest.zero⟩
    let payment : Transaction :=
      (Transaction.payment .zero .zero 300 [7] params).withGroup ⟨Vector.replicate 32 1⟩
    let signed : SignedTransaction := ⟨payment, ⟨[12, 0], [[], [1]]⟩⟩
    payment.Fits ∧ IsCanonicalRecord payment.Carries payment.encode ∧
      signed.Fits ∧ IsCanonicalRecord signed.Carries signed.encode := by
  intro params payment signed
  have hpayment : payment.Fits := ⟨by decide, by decide⟩
  have hsigned : signed.Fits := ⟨hpayment, ⟨by decide, by decide, by decide⟩⟩
  exact ⟨hpayment, canonical_encoding.1 payment hpayment, hsigned,
    (canonical_encoding.2 signed hsigned).1⟩

end FalconAccount
