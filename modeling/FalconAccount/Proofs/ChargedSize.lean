import FalconAccount.Proofs.GroupFees
import FalconAccount.Proofs.MsgpackShortest
import FalconAccount.Proofs.WireUnambiguous

/-!
# The size that is charged for

At the suggested fee a payment is charged for its size outside any group and with the rate in the place
of the fee. What is sent has the final fee and the stamp. The two records agree in all other entries, so
the sizes differ by the width of the fee and the entry of the stamp, which the fee does not pay for.
-/

namespace FalconAccount

namespace Msgpack

theorem length_uintBytes_mono {m n : ℕ} (h : m ≤ n) :
    (uintBytes m).length ≤ (uintBytes n).length := by
  unfold uintBytes
  split_ifs <;> simp [tagged, Bytes.length_ofNat] <;> omega

theorem length_uintBytes_pos (n : ℕ) : 1 ≤ (uintBytes n).length :=
  length_uintBytes_mono (Nat.zero_le n)

theorem length_uintBytes_le_nine (n : UInt64) : (uintBytes n.toNat).length ≤ 9 :=
  length_uintBytes_le (show (Marker.uint 8).isBounded = true by decide) n.toNat_lt

theorem length_encode_uintField (key : String) {n : UInt64} (hn : n ≠ 0) :
    (encodeEntries (uintField key n)).length = (strBytes key).length + (uintBytes n.toNat).length := by
  rw [uintField, if_neg hn, encodeEntries, encodeEntries, Value.encode, List.append_nil,
    List.length_append]

end Msgpack

open Msgpack

namespace Transaction

theorem length_encode (t : Transaction) : t.encode.length = 1 + (encodeEntries t.fields).length := by
  have hheader : (mapHeader t.fields.length).length = 1 :=
    length_mapHeader_of_lt (t.length_fields_le.trans_lt (by decide))
  rw [encode, Value.encode, List.length_append, hheader]

theorem signedSize_eq (t : Transaction) :
    t.signedSize = (t.withFee 0).withoutGroup.signedSize +
      (encodeEntries (uintField "fee" t.fee)).length + (encodeEntries (groupField t.group)).length := by
  have hfee : uintField "fee" 0 = [] := rfl
  rw [signedSize, signedSize, length_encode, length_encode]
  simp only [fields, withFee, withoutGroup, groupField, hfee, GroupReader.encodeEntries_append,
    encodeEntries, List.length_append, List.length_nil]
  omega

theorem length_encode_groupField {id : GroupId} (h : id.isZero = false) :
    (encodeEntries (groupField (some id))).length = 38 := by
  have hkey : (strBytes "grp").length = 4 := by decide
  have hbin : (binBytes id.digest.toList).length = 2 + 32 := by
    simp [binBytes, binHeader, tagged, UInt8.size]
  rw [groupField_of_not_isZero h, encodeEntries, encodeEntries, Value.encode, List.append_nil,
    List.length_append, hkey, hbin]

theorem length_encode_groupField_le (group : Option GroupId) :
    (encodeEntries (groupField group)).length ≤ 38 := by
  rcases groupField_eq_nil_or group with hnil | ⟨id, hid, rfl⟩
  · rw [hnil]
    exact Nat.zero_le 38
  · exact (length_encode_groupField hid).le

/-- The size that is charged for at this rate. -/
def chargedSize (t : Transaction) (rate : UInt64) : ℕ := (t.withoutGroup.withFee rate).signedSize

section Sizes

variable (t : Transaction) {rate : UInt64}

theorem signedSize_add (rate : UInt64) :
    t.signedSize + (encodeEntries (uintField "fee" rate)).length =
      t.chargedSize rate + (encodeEntries (uintField "fee" t.fee)).length +
        (encodeEntries (groupField t.group)).length := by
  have hcharged : t.chargedSize rate = (t.withFee 0).withoutGroup.signedSize +
      (encodeEntries (uintField "fee" rate)).length + 0 :=
    (t.withoutGroup.withFee rate).signedSize_eq
  rw [t.signedSize_eq, hcharged]
  omega

/-- What is sent is larger at most by the stamp and by the other eight bytes of the widest fee. -/
theorem signedSize_le_chargedSize_add (hrate : rate ≠ 0) :
    t.signedSize ≤ t.chargedSize rate + 46 := by
  have hkey : (strBytes "fee").length = 4 := by decide
  have hsent : (encodeEntries (uintField "fee" t.fee)).length ≤ 4 + 9 := by
    by_cases hfee : t.fee = 0
    · rw [hfee]
      exact Nat.zero_le _
    · rw [length_encode_uintField "fee" hfee, hkey]
      exact Nat.add_le_add_left (length_uintBytes_le_nine t.fee) 4
  have hcharged := length_encode_uintField "fee" hrate
  have hwidth := length_uintBytes_pos rate.toNat
  have hstamp := length_encode_groupField_le t.group
  have hsizes := t.signedSize_add rate
  omega

/-- So the charge is larger at most by that for these 46 bytes, also at the rate of zero. -/
theorem charge_le (rate : UInt64) :
    rate.toNat * t.signedSize ≤ rate.toNat * t.chargedSize rate + rate.toNat * 46 := by
  by_cases hrate : rate = 0
  · rw [hrate, UInt64.toNat_zero, Nat.zero_mul]
    exact Nat.zero_le _
  · rw [← Nat.mul_add]
    exact Nat.mul_le_mul_left _ (t.signedSize_le_chargedSize_add hrate)

/-- A stamp makes what is sent larger if the fee is not below the rate. -/
theorem chargedSize_lt_signedSize {id : GroupId} (hgroup : t.group = some id) (hid : id.isZero = false)
    (hrate : rate ≠ 0) (hfee : rate ≤ t.fee) : t.chargedSize rate < t.signedSize := by
  have hnat := UInt64.le_iff_toNat_le.mp hfee
  have hne : t.fee ≠ 0 := by
    intro h
    rw [h] at hfee
    exact hrate (UInt64.le_zero_iff.mp hfee)
  have hwidth := length_uintBytes_mono hnat
  have hstamp := length_encode_groupField hid
  have hsizes := t.signedSize_add rate
  rw [hgroup, hstamp, length_encode_uintField "fee" hrate, length_encode_uintField "fee" hne] at hsizes
  omega

end Sizes

end Transaction

theorem toNat_ownFee_suggested (params : SuggestedParams) (payment : Transaction)
    (h : params.feePerByte.toNat * (payment.withFee params.feePerByte).signedSize < 2 ^ 64) :
    (ownFee params .suggested payment).toNat =
      max (params.feePerByte.toNat * (payment.withFee params.feePerByte).signedSize)
        params.minFee.toNat := by
  -- At the rate of zero the size itself need not fit.
  have hword : params.feePerByte.toNat *
      (UInt64.ofNat (payment.withFee params.feePerByte).signedSize).toNat =
        params.feePerByte.toNat * (payment.withFee params.feePerByte).signedSize := by
    rcases Nat.eq_zero_or_pos params.feePerByte.toNat with hzero | hpos
    · rw [hzero, Nat.zero_mul, Nat.zero_mul]
    · rw [UInt64.toNat_ofNat_of_lt' ((Nat.le_mul_of_pos_left _ hpos).trans_lt h)]
  have hmax : 2 ^ 64 = maxWord + 1 := rfl
  simp only [ownFee, toNat_max, toNat_saturatingMul, hword]
  omega

namespace TransactionGroup

variable {params : SuggestedParams} {fillerCount : UInt64} {sender receiver : Address} {amount : UInt64}
  {note : Bytes} {g : TransactionGroup}

/-- The size that is charged for is known before the payment is stamped. -/
theorem BuiltFrom.chargedSize_payment
    (h : BuiltFrom params .suggested fillerCount sender receiver amount note g) (rate : UInt64) :
    g.payment.chargedSize rate =
      (Transaction.payment sender receiver amount note params).chargedSize rate := by
  rw [h.payment]
  rfl

theorem BuiltFrom.toNat_fee
    (h : BuiltFrom params .suggested fillerCount sender receiver amount note g)
    (hfits : max (params.feePerByte.toNat * g.payment.chargedSize params.feePerByte)
        params.minFee.toNat + fillerCount.toNat * params.minFee.toNat < 2 ^ 64) :
    g.payment.fee.toNat =
      max (params.feePerByte.toNat * g.payment.chargedSize params.feePerByte) params.minFee.toNat +
        fillerCount.toNat * params.minFee.toNat := by
  have hcharged : g.payment.chargedSize params.feePerByte =
      ((Transaction.payment sender receiver amount note params).withFee
        params.feePerByte).signedSize := h.chargedSize_payment params.feePerByte
  have hfee : g.payment.fee = groupFee params .suggested fillerCount
      (Transaction.payment sender receiver amount note params) := by
    rw [h.payment]
    rfl
  have hmax : 2 ^ 64 = maxWord + 1 := rfl
  rw [hcharged] at hfits ⊢
  rw [hfee, groupFee, toNat_saturatingAdd, toNat_saturatingMul,
    toNat_ownFee_suggested params _ (by omega)]
  omega

/-- At the suggested fee the payment of a group pays, besides the shares of its fillers, the charge for its
size without the stamp and with the rate in the place of the fee, or the minimum fee if that is more. The
charge for what is sent exceeds this by at most that for 46 bytes. It is paid in full if the minimum fee
covers it, and behind a stamp that is not zero in no other case. -/
theorem build_pays_chargedSize (ha : 0 < amount) (hk : fillerCount ≤ 15)
    (hfits : max (params.feePerByte.toNat *
        (Transaction.payment sender receiver amount note params).chargedSize params.feePerByte)
        params.minFee.toNat + fillerCount.toNat * params.minFee.toNat < 2 ^ 64) :
    ∃ g, build params .suggested fillerCount sender receiver amount note = .ok g ∧
      g.payment.fee.toNat =
        max (params.feePerByte.toNat * g.payment.chargedSize params.feePerByte) params.minFee.toNat +
          fillerCount.toNat * params.minFee.toNat ∧
      params.feePerByte.toNat * g.payment.signedSize + fillerCount.toNat * params.minFee.toNat ≤
        g.payment.fee.toNat + params.feePerByte.toNat * 46 ∧
      (params.feePerByte.toNat * g.payment.signedSize ≤ params.minFee.toNat →
        params.feePerByte.toNat * g.payment.signedSize + fillerCount.toNat * params.minFee.toNat ≤
          g.payment.fee.toNat) ∧
      (g.id.isZero = false →
        params.feePerByte.toNat * g.payment.signedSize + fillerCount.toNat * params.minFee.toNat ≤
          g.payment.fee.toNat →
        params.feePerByte.toNat * g.payment.signedSize ≤ params.minFee.toNat) := by
  obtain ⟨g, hbuild, hfrom⟩ := exists_build_of_le params .suggested sender receiver note
    (UInt64.pos_iff_ne_zero.mp ha) hk
  rw [← hfrom.chargedSize_payment] at hfits
  have hfee := hfrom.toNat_fee hfits
  have hexcess := g.payment.charge_le params.feePerByte
  refine ⟨g, hbuild, hfee, by omega, fun hcovered => by omega, fun hid hpaid => ?_⟩
  by_cases hrate : params.feePerByte = 0
  · rw [hrate, UInt64.toNat_zero, Nat.zero_mul]
    exact Nat.zero_le _
  · -- The charge is at least the rate, so the fee is no narrower than the rate was.
    have hwide : params.feePerByte.toNat ≤
        params.feePerByte.toNat * g.payment.chargedSize params.feePerByte :=
      Nat.le_mul_of_pos_right _ (Nat.succ_pos _)
    have hle : params.feePerByte ≤ g.payment.fee := by
      rw [UInt64.le_iff_toNat_le]
      omega
    have hgroup : g.payment.group = some g.id := by
      rw [hfrom.payment]
      rfl
    have hpos : 0 < params.feePerByte.toNat :=
      Nat.pos_of_ne_zero fun hzero => hrate (UInt64.toNat_inj.mp hzero)
    have hsize := Nat.mul_lt_mul_of_pos_left
      (g.payment.chargedSize_lt_signedSize hgroup hid hrate hle) hpos
    omega

/-- At ten for each byte, no more than 460 is missing. -/
theorem build_pays_chargedSize_perByte :
    let params : SuggestedParams := ⟨10, 1000, 70000, 71000, "testnet-v1.0", Digest.zero⟩
    ∃ g, build params .suggested 3 .zero .zero 5 [7] = .ok g ∧
      params.feePerByte.toNat * g.payment.signedSize + 3 * params.minFee.toNat ≤
        g.payment.fee.toNat + 460 := by
  intro params
  have hcharged :
      (Transaction.payment .zero .zero 5 [7] params).chargedSize params.feePerByte = 136 := by
    decide +kernel
  have hfits : max (params.feePerByte.toNat *
      (Transaction.payment .zero .zero 5 [7] params).chargedSize params.feePerByte)
      params.minFee.toNat + 3 * params.minFee.toNat < 2 ^ 64 := by
    rw [hcharged]
    decide +kernel
  obtain ⟨g, hbuild, -, hexcess, -⟩ := build_pays_chargedSize (show (0 : UInt64) < 5 by decide)
    (show (3 : UInt64) ≤ 15 by decide) hfits
  exact ⟨g, hbuild, hexcess⟩

/-- The payment of 136 bytes with three fillers pays 1360 at ten for each byte, and that is not the charge
for what is sent: the final fee of 4360 alone takes two bytes more than the rate. -/
theorem build_charge_unpaid :
    let params : SuggestedParams := ⟨10, 1000, 70000, 71000, "testnet-v1.0", Digest.zero⟩
    ∃ g, build params .suggested 3 .zero .zero 5 [7] = .ok g ∧ g.payment.fee.toNat = 4360 ∧
      g.payment.fee.toNat - 3 * params.minFee.toNat <
        params.feePerByte.toNat * g.payment.signedSize := by
  intro params
  obtain ⟨g, hbuild, hfrom⟩ := exists_build_of_le params .suggested .zero .zero [7]
    (show (5 : UInt64) ≠ 0 by decide) (show (3 : UInt64) ≤ 15 by decide)
  have hcharged : g.payment.chargedSize params.feePerByte = 136 := by
    rw [hfrom.chargedSize_payment]
    decide +kernel
  have hfits : max (params.feePerByte.toNat * g.payment.chargedSize params.feePerByte)
      params.minFee.toNat + 3 * params.minFee.toNat < 2 ^ 64 := by
    rw [hcharged]
    decide +kernel
  have hfee : g.payment.fee.toNat = 4360 := by
    rw [hfrom.toNat_fee hfits, hcharged]
    decide +kernel
  have hsizes := g.payment.signedSize_add params.feePerByte
  have hwider : (encodeEntries (uintField "fee" g.payment.fee)).length =
      (encodeEntries (uintField "fee" params.feePerByte)).length + 2 := by
    rw [show g.payment.fee = 4360 from UInt64.toNat_inj.mp hfee]
    decide
  rw [hcharged] at hsizes
  refine ⟨g, hbuild, hfee, ?_⟩
  rw [hfee]
  change 4360 - 3 * 1000 < 10 * _
  omega

end TransactionGroup

end FalconAccount
