import FalconAccount.TransactionGroup
import Mathlib.Tactic

/-!
# What a built group is

Building fails for a zero amount and for too many fillers, and in no other case. What it gives is fixed
by three equations: the payment with its final fee, the fillers in order, and one stamp on all of them,
which is the identifier of the members as they stand. From these the members are read off one by one.
-/

namespace FalconAccount

namespace Transaction

@[simp] theorem withoutGroup_withGroup (t : Transaction) (id : GroupId) :
    (t.withGroup id).withoutGroup = t.withoutGroup := rfl

end Transaction

namespace GroupId

theorem ofTransactions_of_length (members : List Transaction) (hpos : 0 < members.length)
    (hmax : members.length ≤ maxGroupSize) :
    ofTransactions members =
      .ok ⟨sha512_256 (Bytes.ofString "TG") (Msgpack.Value.map (fields members)).encode⟩ := by
  have hempty : members.isEmpty = false := by
    rw [List.isEmpty_eq_false_iff]
    exact List.ne_nil_of_length_pos hpos
  rw [ofTransactions, hempty, if_neg (by simpa using hmax)]

/-- Only what the members are outside any group counts. -/
theorem ofTransactions_congr {first second : List Transaction}
    (h : first.map Transaction.withoutGroup = second.map Transaction.withoutGroup) :
    ofTransactions first = ofTransactions second := by
  have hlength : first.length = second.length := by simpa using congrArg List.length h
  have hempty : first.isEmpty = second.isEmpty := by
    rw [Bool.eq_iff_iff, List.isEmpty_iff_length_eq_zero, List.isEmpty_iff_length_eq_zero, hlength]
  have hids : first.map (·.withoutGroup.id.digest.toList) =
      second.map (·.withoutGroup.id.digest.toList) := by
    simpa [Function.comp_def] using congrArg (List.map (·.id.digest.toList)) h
  rw [ofTransactions, ofTransactions, fields, fields, hlength, hempty, hids]

theorem ofTransactions_withGroup (members : List Transaction) (id : GroupId) :
    ofTransactions (members.map (·.withGroup id)) = ofTransactions members :=
  ofTransactions_congr (by simp [Function.comp_def])

end GroupId

namespace TransactionGroup

variable (params : SuggestedParams) (mode : FeeMode) (fillerCount : UInt64) (sender receiver : Address)
  (amount : UInt64) (note : Bytes)

/-- The payment before it is stamped, with its final fee. -/
def unstampedPayment : Transaction :=
  let draft := Transaction.payment sender receiver amount note params
  draft.withFee (groupFee params mode fillerCount draft)

/-- What `build` makes of its arguments. -/
structure BuiltFrom (g : TransactionGroup) : Prop where
  payment : g.payment =
    (unstampedPayment params mode fillerCount sender receiver amount note).withGroup g.id
  fillers : g.fillers = (fillersOf params fillerCount.toNat).map (·.withGroup g.id)
  id : GroupId.ofTransactions g.transactions = .ok g.id

@[simp] theorem length_fillersOf : (fillersOf params fillerCount.toNat).length = fillerCount.toNat := by
  simp [fillersOf]

theorem build_zero :
    build params mode fillerCount sender receiver 0 note = .error (.error .invalidAmount) := rfl

variable {params mode fillerCount sender receiver amount note} {g : TransactionGroup}

theorem sizeWith_of_lt (h : fillerCount.toNat < maxWord) :
    sizeWith fillerCount = .ok (fillerCount + 1) := by
  have hfits : fillerCount.toNat + (1 : UInt64).toNat < UInt64.size := Nat.succ_lt_succ h
  rw [sizeWith, checkedAdd_of_lt hfits]

theorem sizeWith_of_eq (h : fillerCount.toNat = maxWord) : sizeWith fillerCount = .error .overflow := by
  have hnone : checkedAdd fillerCount 1 = none := if_neg (by rw [h]; decide)
  rw [sizeWith, hnone]

theorem toNat_add_one_of_lt (h : fillerCount.toNat < maxWord) :
    (fillerCount + 1).toNat = fillerCount.toNat + 1 := by
  have hfits : fillerCount.toNat + (1 : UInt64).toNat < UInt64.size := Nat.succ_lt_succ h
  exact toNat_add_of_lt hfits

theorem toNat_lt_maxWord_of_le (hk : fillerCount ≤ 15) : fillerCount.toNat < maxWord :=
  (UInt64.le_iff_toNat_le.mp hk).trans_lt (by decide)

theorem build_of_tooMany (ha : amount ≠ 0) (hk : 15 < fillerCount) (hmax : fillerCount.toNat < maxWord) :
    build params mode fillerCount sender receiver amount note =
      .error (.error (.encoding (.groupSize (fillerCount + 1)))) := by
  have hsize : maxGroupSize < (fillerCount + 1).toNat := by
    rw [toNat_add_one_of_lt hmax]
    exact Nat.succ_lt_succ (UInt64.lt_iff_toNat_lt.mp hk)
  unfold build
  rw [if_neg ha, sizeWith_of_lt hmax]
  change (if _ then _ else _) = _
  rw [if_pos hsize]
  rfl

theorem build_of_overflow (ha : amount ≠ 0) (hk : fillerCount.toNat = maxWord) :
    build params mode fillerCount sender receiver amount note = .error .overflow := by
  unfold build
  rw [if_neg ha, sizeWith_of_eq hk]
  rfl

theorem BuiltFrom.length_fillers
    (h : BuiltFrom params mode fillerCount sender receiver amount note g) :
    g.fillers.length = fillerCount.toNat := by
  rw [h.fillers, List.length_map, length_fillersOf]

theorem BuiltFrom.transactions
    (h : BuiltFrom params mode fillerCount sender receiver amount note g) :
    g.transactions =
      (unstampedPayment params mode fillerCount sender receiver amount note ::
        fillersOf params fillerCount.toNat).map (·.withGroup g.id) := by
  rw [TransactionGroup.transactions, h.payment, h.fillers, List.map_cons]

theorem BuiltFrom.of_mem_fillers
    (h : BuiltFrom params mode fillerCount sender receiver amount note g) {t : Transaction}
    (ht : t ∈ g.fillers) : ∃ index < fillerCount.toNat, t = (filler params index).withGroup g.id := by
  rw [h.fillers] at ht
  obtain ⟨u, hu, rfl⟩ := List.mem_map.mp ht
  obtain ⟨index, hindex, rfl⟩ := List.mem_map.mp hu
  exact ⟨index, List.mem_range.mp hindex, rfl⟩

theorem BuiltFrom.group_of_mem
    (h : BuiltFrom params mode fillerCount sender receiver amount note g) {t : Transaction}
    (ht : t ∈ g.transactions) : t.group = some g.id := by
  rw [h.transactions] at ht
  obtain ⟨u, -, rfl⟩ := List.mem_map.mp ht
  rfl

theorem BuiltFrom.getElem?_transactions_succ
    (h : BuiltFrom params mode fillerCount sender receiver amount note g) {index : ℕ}
    (hindex : index < fillerCount.toNat) :
    g.transactions[index + 1]? = some ((filler params index).withGroup g.id) := by
  rw [h.transactions, List.getElem?_map, List.getElem?_cons_succ, fillersOf, List.getElem?_map,
    List.getElem?_range hindex]
  rfl

/-- The stamp is the identifier of the members before they are stamped, too. -/
theorem BuiltFrom.id_unstamped
    (h : BuiltFrom params mode fillerCount sender receiver amount note g) :
    GroupId.ofTransactions
      (unstampedPayment params mode fillerCount sender receiver amount note ::
        fillersOf params fillerCount.toNat) = .ok g.id := by
  rw [← GroupId.ofTransactions_withGroup _ g.id, ← h.transactions, h.id]

theorem BuiltFrom.unique {other : TransactionGroup}
    (h : BuiltFrom params mode fillerCount sender receiver amount note g)
    (ho : BuiltFrom params mode fillerCount sender receiver amount note other) : g = other := by
  have hid : g.id = other.id := Except.ok.inj (h.id_unstamped.symm.trans ho.id_unstamped)
  obtain ⟨payment, fillers, id⟩ := g
  obtain ⟨payment', fillers', id'⟩ := other
  obtain rfl : id = id' := hid
  rw [show payment = _ from h.payment, show payment' = _ from ho.payment,
    show fillers = _ from h.fillers, show fillers' = _ from ho.fillers]

variable (params mode sender receiver note) in
theorem exists_build_of_le (ha : amount ≠ 0) (hk : fillerCount ≤ 15) :
    ∃ g, build params mode fillerCount sender receiver amount note = .ok g ∧
      BuiltFrom params mode fillerCount sender receiver amount note g := by
  have hsize : ¬ maxGroupSize < (fillerCount + 1).toNat := by
    rw [toNat_add_one_of_lt (toNat_lt_maxWord_of_le hk)]
    exact Nat.not_lt.mpr (Nat.succ_le_succ (UInt64.le_iff_toNat_le.mp hk))
  let members := unstampedPayment params mode fillerCount sender receiver amount note ::
    fillersOf params fillerCount.toNat
  have hlength : members.length = (fillerCount + 1).toNat := by
    rw [List.length_cons, length_fillersOf, toNat_add_one_of_lt (toNat_lt_maxWord_of_le hk)]
  have hid := GroupId.ofTransactions_of_length members (Nat.succ_pos _)
    (hlength ▸ Nat.le_of_not_lt hsize)
  generalize (⟨sha512_256 (Bytes.ofString "TG")
    (Msgpack.Value.map (GroupId.fields members)).encode⟩ : GroupId) = id at hid
  refine ⟨⟨(unstampedPayment params mode fillerCount sender receiver amount note).withGroup id,
    (fillersOf params fillerCount.toNat).map (·.withGroup id), id⟩, ?_, rfl, rfl, ?_⟩
  · unfold build
    rw [if_neg ha, sizeWith_of_lt (toNat_lt_maxWord_of_le hk)]
    change (if maxGroupSize < (fillerCount + 1).toNat then _ else _) = _
    rw [if_neg hsize]
    change ((GroupId.ofTransactions members).mapError _ >>= _) = _
    rw [hid]
    rfl
  · rw [← hid, ← GroupId.ofTransactions_withGroup members id]
    rfl

/-- Building succeeds exactly for a positive amount and at most fifteen fillers, and gives exactly the
group of the three equations. -/
theorem build_eq_ok_iff :
    build params mode fillerCount sender receiver amount note = .ok g ↔
      amount ≠ 0 ∧ fillerCount ≤ 15 ∧
        BuiltFrom params mode fillerCount sender receiver amount note g := by
  constructor
  · intro h
    have ha : amount ≠ 0 := by
      rintro rfl
      rw [build_zero] at h
      cases h
    have hk : fillerCount ≤ 15 := by
      by_contra hk
      rcases toNat_lt_or_eq_maxWord fillerCount with hmax | hmax
      · rw [build_of_tooMany ha (UInt64.not_le.mp hk) hmax] at h
        cases h
      · rw [build_of_overflow ha hmax] at h
        cases h
    obtain ⟨built, hb, hfrom⟩ := exists_build_of_le params mode sender receiver note ha hk
    exact ⟨ha, hk, Except.ok.inj (hb.symm.trans h) ▸ hfrom⟩
  · rintro ⟨ha, hk, hfrom⟩
    obtain ⟨built, hb, hbuilt⟩ := exists_build_of_le params mode sender receiver note ha hk
    rw [hb, hbuilt.unique hfrom]

/-- The members of a group one by one, as they were asked for, and their common stamp. -/
structure Composition (params : SuggestedParams) (fillerCount : UInt64) (sender receiver : Address)
    (amount : UInt64) (note : Bytes) (g : TransactionGroup) : Prop where
  length : g.transactions.length = fillerCount.toNat + 1
  payment : ∃ t, g.transactions[0]? = some t ∧
    t.sender = sender ∧ t.receiver = receiver ∧ t.amount = amount ∧ t.note = note
  /-- A filler pays nothing to itself, for no fee, and its note is its number. -/
  filler : ∀ index < fillerCount.toNat, ∃ t, g.transactions[index + 1]? = some t ∧
    t.sender = Filler.address ∧ t.receiver = Filler.address ∧ t.amount = 0 ∧ t.fee = 0 ∧
    ∃ number : UInt8, number.toNat = index ∧ t.note = [number]
  params : ∀ t ∈ g.transactions, t.firstValid = params.firstValid ∧
    t.lastValid = params.lastValid ∧ t.genesisId = params.genesisId ∧
    t.genesisHash = params.genesisHash
  stamp : ∀ t ∈ g.transactions, t.group = some g.id
  /-- The stamp is the identifier of the members with their stamps and without them. -/
  stamped : GroupId.ofTransactions g.transactions = .ok g.id
  unstamped : GroupId.ofTransactions (g.transactions.map Transaction.withoutGroup) = .ok g.id

theorem BuiltFrom.ofTransactions_withoutGroup
    (h : BuiltFrom params mode fillerCount sender receiver amount note g) :
    GroupId.ofTransactions (g.transactions.map Transaction.withoutGroup) = .ok g.id := by
  rw [← h.id]
  refine GroupId.ofTransactions_congr ?_
  rw [List.map_map]
  rfl

theorem BuiltFrom.params_of_mem
    (h : BuiltFrom params mode fillerCount sender receiver amount note g) {t : Transaction}
    (ht : t ∈ g.transactions) : t.firstValid = params.firstValid ∧
      t.lastValid = params.lastValid ∧ t.genesisId = params.genesisId ∧
      t.genesisHash = params.genesisHash := by
  rcases List.mem_cons.mp ht with rfl | ht
  · rw [h.payment]
    exact ⟨rfl, rfl, rfl, rfl⟩
  · obtain ⟨index, -, rfl⟩ := h.of_mem_fillers ht
    exact ⟨rfl, rfl, rfl, rfl⟩

theorem BuiltFrom.composition
    (h : BuiltFrom params mode fillerCount sender receiver amount note g)
    (hfillers : fillerCount ≤ 15) :
    Composition params fillerCount sender receiver amount note g where
  length := by rw [h.transactions, List.length_map, List.length_cons, length_fillersOf]
  payment := by
    refine ⟨g.payment, rfl, ?_⟩
    rw [h.payment]
    exact ⟨rfl, rfl, rfl, rfl⟩
  filler := by
    intro index hindex
    -- A number below 256 is kept whole by its byte.
    have hnumber : (UInt8.ofNat index).toNat = index :=
      UInt8.toNat_ofNat_of_lt' ((hindex.trans_le (UInt64.le_iff_toNat_le.mp hfillers)).trans (by decide))
    exact ⟨_, h.getElem?_transactions_succ hindex, rfl, rfl, rfl, rfl, _, hnumber, rfl⟩
  params := fun _ ht => h.params_of_mem ht
  stamp := fun _ ht => h.group_of_mem ht
  stamped := h.id
  unstamped := h.ofTransactions_withoutGroup

variable (params mode fillerCount sender receiver amount note) in
/-- Building succeeds exactly for a positive amount and at most fifteen fillers. A zero amount is refused
first, then too many fillers; if there are so many that one more is no word, the program panics instead.
A group that is built has its members in order, as they were asked for, and one stamp on all of them, the
identifier of the members stamped as well as unstamped. -/
theorem build_composes :
    ((∃ g, build params mode fillerCount sender receiver amount note = .ok g) ↔
        0 < amount ∧ fillerCount ≤ 15) ∧
      (build params mode fillerCount sender receiver amount note =
          .error (.error .invalidAmount) ↔ amount = 0) ∧
      (build params mode fillerCount sender receiver amount note =
          .error (.error (.encoding (.groupSize (fillerCount + 1)))) ↔
        0 < amount ∧ 15 < fillerCount ∧ fillerCount.toNat < maxWord) ∧
      (build params mode fillerCount sender receiver amount note = .error .overflow ↔
        0 < amount ∧ fillerCount.toNat = maxWord) ∧
      ∀ g, build params mode fillerCount sender receiver amount note = .ok g →
        Composition params fillerCount sender receiver amount note g := by
  rw [UInt64.pos_iff_ne_zero]
  rcases eq_or_ne amount 0 with rfl | ha
  · rw [build_zero]
    simp
  · by_cases hk : fillerCount ≤ 15
    · obtain ⟨g, hbuild, hfrom⟩ := exists_build_of_le params mode sender receiver note ha hk
      have hmax := (toNat_lt_maxWord_of_le hk).ne
      rw [hbuild]
      refine ⟨by simp [ha, hk], by simp [ha], by simp [hk], by simp [hmax], fun other hother => ?_⟩
      obtain rfl := Except.ok.inj hother
      exact hfrom.composition hk
    · have hmany := UInt64.not_le.mp hk
      rcases toNat_lt_or_eq_maxWord fillerCount with hmax | hmax
      · rw [build_of_tooMany ha hmany hmax]
        simp [ha, hk, hmany, hmax, hmax.ne]
      · rw [build_of_overflow ha hmax]
        simp [ha, hk, hmax]

/-- Three fillers. -/
theorem build_composes_three :
    let params : SuggestedParams := ⟨0, 1000, 70000, 71000, "testnet-v1.0", Digest.zero⟩
    ∃ g, build params .suggested 3 .zero .zero 5 [7] = .ok g ∧
      Composition params 3 .zero .zero 5 [7] g := by
  intro params
  obtain ⟨hsucceeds, -, -, -, hcomposes⟩ := build_composes params .suggested 3 .zero .zero 5 [7]
  obtain ⟨g, hbuild⟩ := hsucceeds.mpr ⟨by decide, by decide⟩
  exact ⟨g, hbuild, hcomposes g hbuild⟩

end TransactionGroup

theorem exists_genesisId_of_checkNetwork {network : Network} {params : SuggestedParams}
    {e : ProtocolError} (h : checkNetwork network params = .error e) :
    ∃ expected, network.genesisId? = some expected ∧ expected ≠ params.genesisId := by
  unfold checkNetwork at h
  cases hexpected : network.genesisId? with
  | none =>
    rw [hexpected] at h
    cases h
  | some expected =>
    refine ⟨expected, rfl, ?_⟩
    rintro rfl
    rw [hexpected] at h
    simp at h

end FalconAccount
