import FalconAccount.Proofs.GroupBuilding
import FalconAccount.Proofs.WireUnambiguous

/-!
# What a group identifier binds

The identifier of a group is a hash of the identifiers that its members have outside any group, and each
of those is a hash of the member's record. Two lists with one identifier are the same apart from stamps,
or two different byte strings with one digest can be read off them. Nothing is assumed about the hash.
-/

namespace FalconAccount

/-- Two different byte strings with the same digest. -/
structure Collision (a b : Bytes) : Prop where
  ne : a ≠ b
  digest : sha512_256 [] a = sha512_256 [] b

/-- The bytes whose digest identifies a payment. -/
def Transaction.preimage (t : Transaction) : Bytes := Bytes.ofString "TX" ++ t.encode

theorem Transaction.digest_id (t : Transaction) : t.id.digest = sha512_256 [] t.preimage := rfl

theorem TxId.eq_of_toList {id other : TxId} (h : id.digest.toList = other.digest.toList) :
    id = other :=
  congrArg TxId.mk (Vector.toList_inj.mp h)

namespace GroupId

def preimage (members : List Transaction) : Bytes :=
  Bytes.ofString "TG" ++ (Msgpack.Value.map (fields members)).encode

theorem ofTransactions_eq_ok {members : List Transaction} {id : GroupId}
    (h : ofTransactions members = .ok id) :
    members.length ≤ maxGroupSize ∧ id.digest = sha512_256 [] (preimage members) := by
  unfold ofTransactions at h
  split_ifs at h with hsize
  rw [Bool.or_eq_true, not_or, decide_eq_true_eq] at hsize
  exact ⟨Nat.le_of_not_lt hsize.2, by rw [← Except.ok.inj h]; rfl⟩

theorem fits_map_fields {members : List Transaction} (h : members.length ≤ maxGroupSize) :
    (Msgpack.Value.map (fields members)).Fits := by
  have hflat : fields members = List.flatten
      [Msgpack.binsField "txlist" (members.map (·.withoutGroup.id.digest.toList))] := by
    simp [fields]
  rw [hflat]
  refine Msgpack.fits_map_flatten (show 1 < UInt32.size by decide) ?_
  rw [List.forall_mem_singleton]
  refine Msgpack.binsField_fits (by decide) ?_ ?_
  · rw [List.length_map]
    exact h.trans_lt (by decide)
  · simp [UInt32.size]

theorem map_id_of_preimage_eq {first second : List Transaction} (hfirst : first.length ≤ maxGroupSize)
    (hsecond : second.length ≤ maxGroupSize) (h : preimage first = preimage second) :
    first.map (·.withoutGroup.id) = second.map (·.withoutGroup.id) := by
  have hfields := (Msgpack.encode_append_inj (fits_map_fields hfirst) (fits_map_fields hsecond)
    (congrArg (· ++ []) (List.append_cancel_left h))).1
  have hdigests := Msgpack.binsField_inj (Msgpack.Value.map.inj hfields)
  have hmap (members : List Transaction) : members.map (·.withoutGroup.id.digest.toList) =
      (members.map (·.withoutGroup.id)).map (·.digest.toList) := by
    rw [List.map_map]
    rfl
  rw [hmap, hmap] at hdigests
  exact List.map_injective_iff.mpr (fun _ _ => TxId.eq_of_toList) hdigests

end GroupId

/-- Payments with one identifier are the same, or their records collide. -/
theorem Transaction.eq_or_collision_of_id_eq {t u : Transaction} (ht : t.Fits) (hu : u.Fits)
    (h : t.withoutGroup.id = u.withoutGroup.id) :
    t.withoutGroup = u.withoutGroup ∨ Collision t.withoutGroup.preimage u.withoutGroup.preimage := by
  by_cases hpreimage : t.withoutGroup.preimage = u.withoutGroup.preimage
  · have ht' : t.withoutGroup.Fits := ⟨ht.note, ht.genesisId⟩
    have hu' : u.withoutGroup.Fits := ⟨hu.note, hu.genesisId⟩
    exact .inl ((encode_eq_iff ht' hu').mp (List.append_cancel_left hpreimage)).unstamped
  · refine .inr ⟨hpreimage, ?_⟩
    rw [← digest_id, ← digest_id, h]

/-- Lists whose members have the same identifiers are the same, or two members at one place collide. -/
theorem eq_or_collision_of_map_id_eq {first second : List Transaction} (hfirst : ∀ t ∈ first, t.Fits)
    (hsecond : ∀ t ∈ second, t.Fits)
    (h : first.map (·.withoutGroup.id) = second.map (·.withoutGroup.id)) :
    first.map Transaction.withoutGroup = second.map Transaction.withoutGroup ∨
      ∃ (i : ℕ) (t u : Transaction), first[i]? = some t ∧ second[i]? = some u ∧
        Collision t.withoutGroup.preimage u.withoutGroup.preimage := by
  induction first generalizing second with
  | nil =>
    rw [List.map_nil, eq_comm, List.map_eq_nil_iff] at h
    rw [h]
    exact .inl rfl
  | cons t first ih =>
    cases second with
    | nil => cases h
    | cons u second =>
      obtain ⟨hid, h⟩ := List.cons.inj h
      obtain ⟨ht, hfirst⟩ := List.forall_mem_cons.mp hfirst
      obtain ⟨hu, hsecond⟩ := List.forall_mem_cons.mp hsecond
      rcases Transaction.eq_or_collision_of_id_eq ht hu hid with hsame | hcollision
      · rcases ih hfirst hsecond h with hrest | ⟨i, v, w, hv, hw, hcollision⟩
        · rw [List.map_cons, List.map_cons, hsame, hrest]
          exact .inl rfl
        · exact .inr ⟨i + 1, v, w, hv, hw, hcollision⟩
      · exact .inr ⟨0, t, u, rfl, rfl, hcollision⟩

theorem GroupId.ofTransactions_of_size (members : List Transaction)
    (h : ¬ (1 ≤ members.length ∧ members.length ≤ 16)) :
    ofTransactions members = .error (.groupSize (UInt64.ofNat members.length)) := by
  refine if_pos ?_
  rw [Bool.or_eq_true, List.isEmpty_iff_length_eq_zero, decide_eq_true_eq, maxGroupSize]
  omega

/-- Stamps have no effect on the identifier of a list, and two lists with one identifier are the same
place by place apart from stamps, or a collision can be read off them: between their two records of
identifiers, or between two payments at one place. Lists of one to sixteen payments have an identifier,
and no others. -/
theorem groupId_binds (first second : List Transaction) (hfirst : ∀ t ∈ first, t.Fits)
    (hsecond : ∀ t ∈ second, t.Fits) :
    (∀ restamped : List Transaction,
        restamped.map Transaction.withoutGroup = first.map Transaction.withoutGroup →
        GroupId.ofTransactions restamped = GroupId.ofTransactions first) ∧
      (∀ id, GroupId.ofTransactions first = .ok id → GroupId.ofTransactions second = .ok id →
        first.map Transaction.withoutGroup = second.map Transaction.withoutGroup ∨
          Collision (GroupId.preimage first) (GroupId.preimage second) ∨
          ∃ (i : ℕ) (t u : Transaction), first[i]? = some t ∧ second[i]? = some u ∧
            Collision t.withoutGroup.preimage u.withoutGroup.preimage) ∧
      ∀ members : List Transaction,
        (1 ≤ members.length ∧ members.length ≤ 16 → ∃ id, GroupId.ofTransactions members = .ok id) ∧
        (¬ (1 ≤ members.length ∧ members.length ≤ 16) →
          GroupId.ofTransactions members = .error (.groupSize (UInt64.ofNat members.length))) := by
  refine ⟨fun _ => GroupId.ofTransactions_congr, ?_, fun members => ⟨?_, ?_⟩⟩
  · intro id hid hid'
    obtain ⟨hsize, hdigest⟩ := GroupId.ofTransactions_eq_ok hid
    obtain ⟨hsize', hdigest'⟩ := GroupId.ofTransactions_eq_ok hid'
    by_cases hpreimage : GroupId.preimage first = GroupId.preimage second
    · have hids := GroupId.map_id_of_preimage_eq hsize hsize' hpreimage
      exact (eq_or_collision_of_map_id_eq hfirst hsecond hids).imp_right .inr
    · exact .inr (.inl ⟨hpreimage, hdigest.symm.trans hdigest'⟩)
  · rintro ⟨hpos, hmax⟩
    exact ⟨_, GroupId.ofTransactions_of_length members hpos hmax⟩
  · exact GroupId.ofTransactions_of_size members

/-- A pair of payments, the second list with a stamp on its first member. -/
theorem groupId_binds_stamped :
    let params : SuggestedParams := ⟨0, 1000, 70000, 71000, "testnet-v1.0", Digest.zero⟩
    let paid : Transaction := .payment .zero .zero 300 [7] params
    let other : Transaction := .payment .zero .zero 0 [0] params
    let stamp : GroupId := ⟨sha512_256 [] []⟩
    GroupId.ofTransactions [paid.withGroup stamp, other] = GroupId.ofTransactions [paid, other] ∧
      ∀ id, GroupId.ofTransactions [paid, other] = .ok id →
        GroupId.ofTransactions [other, paid] = .ok id →
        Collision (GroupId.preimage [paid, other]) (GroupId.preimage [other, paid]) ∨
          ∃ (i : ℕ) (t u : Transaction), [paid, other][i]? = some t ∧ [other, paid][i]? = some u ∧
            Collision t.withoutGroup.preimage u.withoutGroup.preimage := by
  intro params paid other stamp
  have hpaid : paid.Fits := ⟨by decide, by decide⟩
  have hother : other.Fits := ⟨by decide, by decide⟩
  obtain ⟨hstamp, hbinds, -⟩ := groupId_binds [paid, other] [other, paid] (by simp [hpaid, hother])
    (by simp [hpaid, hother])
  refine ⟨hstamp _ rfl, fun id hid hid' => ?_⟩
  refine (hbinds id hid hid').resolve_left fun hsame => ?_
  have hamount : (300 : UInt64) = 0 := congrArg Transaction.amount (List.cons.inj hsame).1
  exact absurd hamount (by decide)

end FalconAccount
