import FalconAccount.Proofs.GroupBuilding
import FalconAccount.Proofs.GroupWire

/-!
# What a group costs

The payment bears the fees of its group. Its fee is a formula over the natural numbers, cut off at the
largest word only once, at the end: the stops on the way there change nothing. The size in the formula
is that of a record on the wire, of the payment with a signature of 64 bytes.
-/

namespace FalconAccount

namespace Transaction

/-- The record of a payment that a signature of 64 bytes authorises. -/
def signedRecord (t : Transaction) (signature : Vector UInt8 64) : Msgpack.Value :=
  .map (Msgpack.binField "sig" signature.toList ++ Msgpack.mapField "txn" t.fields)

theorem signedRecord_eq (t : Transaction) (signature : Vector UInt8 64) :
    t.signedRecord signature = .map [("sig", .bin signature.toList), ("txn", .map t.fields)] := by
  have hsig : signature.toList.isEmpty = false := by
    rw [List.isEmpty_eq_false_iff]
    apply List.ne_nil_of_length_pos
    simp
  have htxn : t.fields.isEmpty = false := by
    simpa using t.fields_ne_nil
  rw [signedRecord, Msgpack.binField, Msgpack.mapField, hsig, htxn]
  rfl

/-- The size on which fees are charged is that of the record, whatever the signature. -/
theorem length_encode_signedRecord (t : Transaction) (signature : Vector UInt8 64) :
    (t.signedRecord signature).encode.length = t.signedSize := by
  have hheader : (Msgpack.mapHeader 2).length = 1 := by decide
  have hsig : (Msgpack.strBytes "sig").length = 4 := by decide
  have htxn : (Msgpack.strBytes "txn").length = 4 := by decide
  have hbin : (Msgpack.binBytes signature.toList).length = 2 + 64 := by
    simp [Msgpack.binBytes, Msgpack.binHeader, Msgpack.tagged, UInt8.size]
  rw [signedRecord_eq, signedSize, signatureOverhead, encode]
  simp only [Msgpack.Value.encode, Msgpack.encodeEntries, List.length_append, List.length_cons,
    List.length_nil, hheader, hsig, htxn, hbin]
  omega

end Transaction

/-- The payment's own fee as a natural number, for a signed payment of `size` bytes. -/
def FeeMode.own (mode : FeeMode) (params : SuggestedParams) (size : ℕ) : ℕ :=
  match mode with
  | .flat fee => fee.toNat
  | .suggested => max (params.feePerByte.toNat * size) params.minFee.toNat

/-- A stop at the largest word in the payment's own fee is not seen behind a later one. -/
theorem toNat_ownFee (params : SuggestedParams) (mode : FeeMode) (payment : Transaction)
    (hsize : (payment.withFee params.feePerByte).signedSize < UInt64.size) :
    (ownFee params mode payment).toNat =
      min (mode.own params (payment.withFee params.feePerByte).signedSize) maxWord := by
  have hmax : UInt64.size = maxWord + 1 := rfl
  cases mode with
  | flat fee =>
    have hfee := fee.toNat_lt_size
    change fee.toNat = min fee.toNat maxWord
    omega
  | suggested =>
    have hmin := params.minFee.toNat_lt_size
    have hword : (UInt64.ofNat (payment.withFee params.feePerByte).signedSize).toNat =
        (payment.withFee params.feePerByte).signedSize := UInt64.toNat_ofNat_of_lt' hsize
    simp only [ownFee, FeeMode.own, toNat_max, toNat_saturatingMul, hword]
    omega

theorem toNat_groupFee (params : SuggestedParams) (mode : FeeMode) (fillerCount : UInt64)
    (payment : Transaction)
    (hsize : (payment.withFee params.feePerByte).signedSize < UInt64.size) :
    (groupFee params mode fillerCount payment).toNat =
      min (mode.own params (payment.withFee params.feePerByte).signedSize +
        fillerCount.toNat * params.minFee.toNat) maxWord := by
  rw [groupFee, toNat_saturatingAdd, toNat_saturatingMul, toNat_ownFee params mode payment hsize]
  omega

namespace TransactionGroup

variable {params : SuggestedParams} {mode : FeeMode} {fillerCount : UInt64} {sender receiver : Address}
  {amount : UInt64} {note : Bytes} {g : TransactionGroup}

/-- All fees of the group are borne by the payment. -/
theorem BuiltFrom.sum_fees
    (h : BuiltFrom params mode fillerCount sender receiver amount note g) :
    (g.transactions.map (·.fee.toNat)).sum = g.payment.fee.toNat := by
  have hfillers : (g.fillers.map (·.fee.toNat)).sum = 0 := by
    apply List.sum_eq_zero
    intro fee hfee
    obtain ⟨t, ht, rfl⟩ := List.mem_map.mp hfee
    obtain ⟨index, -, rfl⟩ := h.of_mem_fillers ht
    rfl
  rw [TransactionGroup.transactions, List.map_cons, List.sum_cons, hfillers, Nat.add_zero]

variable (params sender receiver amount note) in
/-- The record whose bytes are charged for: that of the signed payment outside any group, with the rate
in the place of the fee. -/
def chargedRecord (signature : Vector UInt8 64) : Msgpack.Value :=
  ((Transaction.payment sender receiver amount note params).withFee params.feePerByte).signedRecord
    signature

/-- A payment is built with the fee of the formula over the natural numbers, cut off at the largest word:
its own fee, and the minimum fee for each filler. At the suggested fee the members together pay at least
the minimum fee for each of them. Sizes are counted in words: the bound on the record's is that of every
byte string in memory. -/
theorem build_fee (mode : FeeMode) (signature : Vector UInt8 64) (ha : 0 < amount)
    (hk : fillerCount ≤ 15)
    (hsize : (chargedRecord params sender receiver amount note signature).encode.length < 2 ^ 64) :
    ∃ g, build params mode fillerCount sender receiver amount note = .ok g ∧
      g.payment.fee.toNat = min (2 ^ 64 - 1)
        (mode.own params (chargedRecord params sender receiver amount note signature).encode.length +
          fillerCount.toNat * params.minFee.toNat) ∧
      (mode = .suggested →
        min ((fillerCount.toNat + 1) * params.minFee.toNat) (2 ^ 64 - 1) ≤
          (g.transactions.map (·.fee.toNat)).sum) := by
  obtain ⟨g, hbuild, hfrom⟩ := exists_build_of_le params mode sender receiver note
    (UInt64.pos_iff_ne_zero.mp ha) hk
  have hfee : g.payment.fee.toNat = min (2 ^ 64 - 1)
      (mode.own params (chargedRecord params sender receiver amount note signature).encode.length +
        fillerCount.toNat * params.minFee.toNat) := by
    rw [chargedRecord, Transaction.length_encode_signedRecord] at hsize ⊢
    rw [hfrom.payment, Nat.min_comm]
    exact toNat_groupFee params mode fillerCount _ hsize
  refine ⟨g, hbuild, hfee, ?_⟩
  rintro rfl
  -- The payment's own fee is at least the minimum fee, and the fillers' shares are added to it.
  have hown := Nat.le_max_right (params.feePerByte.toNat *
    (chargedRecord params sender receiver amount note signature).encode.length) params.minFee.toNat
  rw [hfrom.sum_fees, hfee, Nat.add_one_mul]
  change _ ≤ min (2 ^ 64 - 1) (max _ _ + _)
  omega

/-- A payment of 136 bytes at ten for each byte, with three fillers; and a flat fee for which the shares
of the fillers leave no room. -/
theorem build_fee_perByte :
    let params : SuggestedParams := ⟨10, 1000, 70000, 71000, "testnet-v1.0", Digest.zero⟩
    let dear : SuggestedParams := { params with minFee := 0x8000000000000000 }
    (∃ g, build params .suggested 3 .zero .zero 5 [7] = .ok g ∧ g.payment.fee.toNat = 4360 ∧
        4000 ≤ (g.transactions.map (·.fee.toNat)).sum) ∧
      ∃ g, build dear (.flat 1) 2 .zero .zero 5 [7] = .ok g ∧ g.payment.fee.toNat = 2 ^ 64 - 1 := by
  intro params dear
  have hlength : (chargedRecord params .zero .zero 5 [7] (.replicate 64 0)).encode.length = 136 := by
    decide +kernel
  -- The minimum fee is no part of the record.
  have hdear : (chargedRecord dear .zero .zero 5 [7] (.replicate 64 0)).encode.length = 136 := hlength
  obtain ⟨g, hbuild, hfee, hsum⟩ := build_fee .suggested (.replicate 64 0)
    (show (0 : UInt64) < 5 by decide) (show (3 : UInt64) ≤ 15 by decide) (hlength.trans_lt (by decide))
  obtain ⟨g', hbuild', hfee', -⟩ := build_fee (.flat 1) (.replicate 64 0)
    (show (0 : UInt64) < 5 by decide) (show (2 : UInt64) ≤ 15 by decide) (hdear.trans_lt (by decide))
  rw [hlength] at hfee
  exact ⟨⟨g, hbuild, hfee.trans (by decide), hsum rfl⟩, g', hbuild', hfee'.trans (by decide)⟩

end TransactionGroup

end FalconAccount
