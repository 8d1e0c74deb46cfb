import FalconAccount.Proofs.GroupWire
import FalconAccount.Proofs.SelfDelimiting

/-!
# Groups cut short

A cut of a written group leaves some members whole and then the start of the next one. If the cut falls
between two members, the members before it are a group of their own. Anywhere else the start of a member
is left, and no start of a member is a member: it is reported as truncated, wherever in it the cut falls.
-/

namespace FalconAccount

open Msgpack

namespace GroupReader

/-- The entries of a map, as a reader that keeps none of them. -/
def passEntries : ℕ → Bytes → Except ReadError (Unit × Bytes)
  | 0, bs => .ok ((), bs)
  | n + 1, bs => readKey bs >>= fun key => passValues 1 key.2 >>= fun value => passEntries n value.2

def passMember (bs : Bytes) : Except ReadError (Unit × Bytes) :=
  readMapHeader bs >>= fun header => passEntries header.1 header.2

theorem isSelfDelimiting_passEntries (n : ℕ) : IsSelfDelimiting (passEntries n) := by
  induction n with
  | zero => exact .pure ()
  | succ n ih =>
    exact isSelfDelimiting_readKey.bind fun _ => (isSelfDelimiting_passValues 1).bind fun _ => ih

theorem isSelfDelimiting_passMember : IsSelfDelimiting passMember :=
  isSelfDelimiting_readMapHeader.bind isSelfDelimiting_passEntries

/-- What is kept of the entries has no say in how they are read. -/
theorem map_readEntries (n : ℕ) (found : Option Stretch) (bs : Bytes) :
    (readEntries n found bs).map (fun r => ((), r.2)) = passEntries n bs := by
  induction n generalizing found bs with
  | zero => rfl
  | succ n ih =>
    rw [readEntries, passEntries]
    cases readKey bs with
    | error e => rfl
    | ok key =>
      change (skipValue key.2 >>= fun rest => readEntries n _ rest).map _ =
        (passValues 1 key.2 >>= fun value => passEntries n value.2)
      rw [passValues, skipValue]
      cases skipValues 1 key.2 with
      | error e => rfl
      | ok rest => exact ih _ rest

theorem map_readMember (bs : Bytes) :
    (readMember bs).map (fun r => ((), r.2)) = passMember bs := by
  rw [readMember, passMember]
  cases readMapHeader bs with
  | error e => rfl
  | ok header => exact map_readEntries header.1 none header.2

theorem readMember_of_part {s : SignedTransaction} (h : s.Fits) {piece : Bytes}
    (hpiece : piece <+: s.encode) (hne : piece ≠ s.encode) :
    readMember piece = .error .truncated := by
  have hwhole : passMember s.encode = .ok ((), []) := by
    have hread := readMember_encode h []
    rw [List.append_nil] at hread
    rw [← map_readMember, hread]
    rfl
  have hcut := isSelfDelimiting_passMember.truncated hwhole hpiece hne
  rwa [← map_readMember, map_eq_error_iff] at hcut

/-- A part of a member after whole members is reported as truncated, unless it is empty. -/
theorem readMembers_append_part {before : List SignedTransaction} (hbefore : ∀ s ∈ before, s.Fits)
    {s : SignedTransaction} (h : s.Fits) {piece : Bytes} (hpiece : piece <+: s.encode)
    (hne : piece ≠ s.encode) (hpos : piece ≠ []) {room : ℕ} (hroom : before.length < room)
    (position : ℕ) :
    readMembers room position (encodeGroup before ++ piece) = .error (.malformed .truncated) := by
  induction before generalizing room position with
  | nil =>
    obtain ⟨room, rfl⟩ := Nat.exists_eq_add_one.mpr hroom
    have hread := readMember_of_part h hpiece hne
    change readMembers (room + 1) position piece = _
    cases piece with
    | nil => exact absurd rfl hpos
    | cons b piece =>
      rw [readMembers, hread]
      exact List.cons_ne_nil b piece
  | cons first before ih =>
    obtain ⟨hfirst, hbefore⟩ := List.forall_mem_cons.mp hbefore
    obtain ⟨room, rfl⟩ := Nat.exists_eq_add_one.mpr (Nat.zero_lt_of_lt hroom)
    have hcons : encodeGroup (first :: before) ++ piece =
        first.encode ++ (encodeGroup before ++ piece) := List.append_assoc _ _ _
    rw [hcons, readMembers_encode hfirst, ih hbefore (Nat.lt_of_succ_lt_succ hroom)]
    rfl

end GroupReader

theorem encodeGroup_append (first second : List SignedTransaction) :
    encodeGroup (first ++ second) = encodeGroup first ++ encodeGroup second :=
  List.flatMap_append

theorem exists_cut {group : List SignedTransaction} {n : ℕ} (hn : n < (encodeGroup group).length) :
    ∃ (before : List SignedTransaction) (s : SignedTransaction) (after : List SignedTransaction)
      (piece : Bytes), group = before ++ s :: after ∧ piece <+: s.encode ∧ piece ≠ s.encode ∧
        (encodeGroup group).take n = encodeGroup before ++ piece := by
  induction group generalizing n with
  | nil => exact absurd hn n.not_lt_zero
  | cons s group ih =>
    have hcons : encodeGroup (s :: group) = s.encode ++ encodeGroup group := rfl
    rw [hcons] at hn ⊢
    by_cases hfirst : n < s.encode.length
    · refine ⟨[], s, group, s.encode.take n, rfl, List.take_prefix n s.encode, fun h => ?_, ?_⟩
      · have hlength := congrArg List.length h
        rw [List.length_take] at hlength
        omega
      · rw [List.take_append_of_le_length hfirst.le]
        rfl
    · rw [List.length_append] at hn
      obtain ⟨before, t, after, piece, rfl, hpiece, hne, htake⟩ :=
        ih (show n - s.encode.length < _ by omega)
      refine ⟨s :: before, t, after, piece, rfl, hpiece, hne, ?_⟩
      rw [List.take_append, List.take_of_length_le (not_lt.mp hfirst), htake, ← List.append_assoc]
      rfl

theorem take_encodeGroup (group : List SignedTransaction) (k : ℕ) :
    (encodeGroup group).take (encodeGroup (group.take k)).length = encodeGroup (group.take k) := by
  conv_lhs => rw [← List.take_append_drop k group, encodeGroup_append]
  rw [List.take_append_drop k group]
  exact List.take_left

/-- Of a written group that is cut short, identifiers are read if and only if the cut falls before the
first member or between two, and then they are those of the members before the cut. Every other cut is
reported as truncated. -/
theorem transactionIds_cut (group : List SignedTransaction) (hfits : ∀ s ∈ group, s.Fits)
    (hsize : group.length ≤ 16) {n : ℕ} (hn : n < (encodeGroup group).length) :
    ((∃ ids, transactionIds ((encodeGroup group).take n) = .ok ids) ↔
        ∃ k < group.length, n = (encodeGroup (group.take k)).length) ∧
      (∀ k < group.length, n = (encodeGroup (group.take k)).length →
        transactionIds ((encodeGroup group).take n) =
          .ok ((group.take k).map SignedTransaction.id)) ∧
      ∀ e, transactionIds ((encodeGroup group).take n) = .error e →
        e = .malformed .truncated ∧ e.message = "truncated msgpack" := by
  have hboundary (k : ℕ) (hn : n = (encodeGroup (group.take k)).length) :
      transactionIds ((encodeGroup group).take n) = .ok ((group.take k).map SignedTransaction.id) := by
    have hfits' : ∀ s ∈ group.take k, s.Fits := fun s hs => hfits s (List.mem_of_mem_take hs)
    have hread := GroupReader.readMembers_encodeGroup hfits' maxGroupSize 0
    rw [hn, take_encodeGroup, transactionIds, hread]
    exact if_pos ((List.length_take_le' k group).trans hsize)
  obtain ⟨before, s, after, piece, rfl, hpiece, hne, htake⟩ := exists_cut hn
  have hlt : before.length < (before ++ s :: after).length := by
    rw [List.length_append, List.length_cons]
    omega
  by_cases hempty : piece = []
  · -- The cut falls where the member `s` starts.
    have hstart : n = (encodeGroup ((before ++ s :: after).take before.length)).length := by
      have hlength := congrArg List.length htake
      rw [hempty, List.append_nil, List.length_take] at hlength
      rw [List.take_left]
      omega
    refine ⟨iff_of_true ⟨_, hboundary _ hstart⟩ ⟨_, hlt, hstart⟩, fun k _ => hboundary k, ?_⟩
    intro e he
    cases he.symm.trans (hboundary _ hstart)
  · have hbefore : ∀ t ∈ before, t.Fits := fun t ht => hfits t (List.mem_append_left _ ht)
    have hs : s.Fits := hfits s (List.mem_append_right _ List.mem_cons_self)
    have herror : transactionIds ((encodeGroup (before ++ s :: after)).take n) =
        .error (.malformed .truncated) := by
      rw [htake]
      exact GroupReader.readMembers_append_part hbefore hs hpiece hne hempty (hlt.trans_le hsize) 0
    refine ⟨⟨?_, fun ⟨k, _, hk⟩ => ⟨_, hboundary k hk⟩⟩, fun k _ => hboundary k, ?_⟩
    · rintro ⟨ids, hids⟩
      cases herror.symm.trans hids
    · intro e he
      obtain rfl := Except.error.inj (herror.symm.trans he)
      exact ⟨rfl, rfl⟩

/-- Two members, cut between them and in the header of the second. -/
theorem transactionIds_cut_pair :
    let params : SuggestedParams := ⟨0, 1000, 70000, 71000, "testnet-v1.0", Digest.zero⟩
    let first : SignedTransaction := ⟨.payment .zero .zero 300 [7] params, ⟨[12, 0], [[], [1]]⟩⟩
    let second : SignedTransaction := ⟨.payment .zero .zero 0 [] params, ⟨[], []⟩⟩
    let start := first.encode.length
    transactionIds ((encodeGroup [first, second]).take start) = .ok [first.id] ∧
      transactionIds ((encodeGroup [first, second]).take (start + 1)) =
        .error (.malformed .truncated) := by
  intro params first second start
  have hfirst : first.Fits := ⟨⟨by decide, by decide⟩, ⟨by decide, by decide, by decide⟩⟩
  have hsecond : second.Fits := ⟨⟨by decide, by decide⟩, ⟨by decide, by decide, by decide⟩⟩
  have hfits : ∀ s ∈ [first, second], s.Fits := by simp [hfirst, hsecond]
  have hlength : start + 1 < (encodeGroup [first, second]).length := by decide +kernel
  have hstart : start = (encodeGroup [first]).length := by decide +kernel
  obtain ⟨-, hids, -⟩ := transactionIds_cut [first, second] hfits (show 2 ≤ 16 by decide)
    (Nat.lt_of_succ_lt hlength)
  obtain ⟨hiff, -, herror⟩ := transactionIds_cut [first, second] hfits (show 2 ≤ 16 by decide) hlength
  refine ⟨hids 1 (show 1 < 2 by decide) hstart, ?_⟩
  cases hcut : transactionIds ((encodeGroup [first, second]).take (start + 1)) with
  | ok ids =>
    obtain ⟨k, hk, hboundary⟩ := hiff.mp ⟨ids, hcut⟩
    have hboundaries : ∀ k < 2, start + 1 ≠ (encodeGroup ([first, second].take k)).length := by
      decide +kernel
    exact absurd hboundary (hboundaries k hk)
  | error e => rw [(herror e hcut).1]

end FalconAccount
