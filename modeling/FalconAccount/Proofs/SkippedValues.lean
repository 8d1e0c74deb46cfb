import FalconAccount.Proofs.SelfDelimiting

/-!
# Skipping values

A value is skipped by opening it and skipping the values that belong to it. How many these are is written
in the bytes, and that number may be far beyond what the bytes can hold. Still the recursion ends, since
each value that is opened takes a byte at least. What is skipped is known from its own bytes alone.
-/

namespace FalconAccount.Msgpack

/-- Values are skipped one after another, up to the first that is wrong. -/
theorem skipValues_add (m n : ℕ) (bs : Bytes) :
    skipValues (m + n) bs = skipValues m bs >>= skipValues n := by
  fun_induction skipValues m bs with
  | case1 bs =>
    rw [Nat.zero_add]
    rfl
  | case2 bs m e he =>
    rw [Nat.succ_add, skipValues_of_openValue_error he]
    rfl
  | case3 bs m children rest hopen _ ih =>
    rw [Nat.succ_add, skipValues_succ hopen, ← Nat.add_assoc]
    exact ih

/-- The recursion by which so many values are skipped, with its result and with how many values are opened
in it. A value is opened, the values that belong to it are skipped, and then those that come after it. -/
inductive Skips : ℕ → Bytes → Except ReadError Bytes → ℕ → Prop
  | done (bs : Bytes) : Skips 0 bs (.ok bs) 0
  /-- The first value cannot be opened. -/
  | unopened {owed : ℕ} {bs : Bytes} {e : ReadError} (h : openValue bs = .error e) :
    Skips (owed + 1) bs (.error e) 1
  /-- A value that belongs to the first one is wrong. -/
  | inside {owed children opened : ℕ} {bs rest : Bytes} {e : ReadError}
    (h : openValue bs = .ok (children, rest)) (hinside : Skips children rest (.error e) opened) :
    Skips (owed + 1) bs (.error e) (opened + 1)
  | after {owed children opened opened' : ℕ} {bs rest rest' : Bytes} {result : Except ReadError Bytes}
    (h : openValue bs = .ok (children, rest)) (hinside : Skips children rest (.ok rest') opened)
    (hafter : Skips owed rest' result opened') :
    Skips (owed + 1) bs result (opened + 1 + opened')

theorem Skips.skipValues_eq {owed opened : ℕ} {bs : Bytes} {result : Except ReadError Bytes}
    (h : Skips owed bs result opened) : skipValues owed bs = result := by
  induction h with
  | done bs => exact skipValues_zero bs
  | unopened h => exact skipValues_of_openValue_error h _
  | inside h _ ih =>
    rw [skipValues_succ h, skipValues_add, ih]
    rfl
  | after h _ _ ihinside ihafter =>
    rw [skipValues_succ h, skipValues_add, ihinside]
    exact ihafter

/-- Whatever the counts in the bytes say, the recursion ends: no more values are opened than there are
bytes, and one that is wrong. -/
theorem exists_skips (owed : ℕ) (bs : Bytes) :
    ∃ opened, Skips owed bs (skipValues owed bs) opened ∧ opened ≤ bs.length + 1 ∧
      ∀ rest, skipValues owed bs = .ok rest → opened + rest.length ≤ bs.length := by
  induction hlength : bs.length using Nat.strong_induction_on generalizing owed bs with
  | _ length ih =>
    subst hlength
    cases owed with
    | zero =>
      rw [skipValues_zero]
      refine ⟨0, .done bs, Nat.zero_le _, fun rest hrest => ?_⟩
      obtain rfl := Except.ok.inj hrest
      exact (Nat.zero_add _).le
    | succ owed =>
      cases hopen : openValue bs with
      | error e =>
        rw [skipValues_of_openValue_error hopen]
        exact ⟨1, .unopened hopen, Nat.le_add_left _ _, fun rest hrest => by cases hrest⟩
      | ok head =>
        obtain ⟨children, rest⟩ := head
        have hrest := openValue_rest_length hopen
        obtain ⟨opened, hinside, hopened, htaken⟩ := ih rest.length hrest children rest rfl
        rw [skipValues_succ hopen, skipValues_add]
        cases hresult : skipValues children rest with
        | error e =>
          rw [hresult] at hinside
          exact ⟨opened + 1, .inside hopen hinside, by omega, fun rest hrest => by cases hrest⟩
        | ok rest' =>
          -- Each of the two parts takes a byte for each value that it opens.
          have hbetween := htaken rest' hresult
          obtain ⟨opened', hafter, hopened', htaken'⟩ := ih rest'.length (by omega) owed rest' rfl
          rw [hresult] at hinside
          refine ⟨opened + 1 + opened', .after hopen hinside hafter, by omega, fun last hlast => ?_⟩
          have hlast' := htaken' last hlast
          omega

/-- What a reader of values does at the front of the bytes. -/
structure SkipsLocally (skip : Bytes → Except ReadError Bytes) (bs : Bytes) : Prop where
  /-- What is taken off is not empty. It is taken off in front of anything, and no part of it is taken for
  the whole. -/
  ok : ∀ rest, skip bs = .ok rest → ∃ taken, taken ≠ [] ∧ bs = taken ++ rest ∧
    (∀ more, skip (taken ++ more) = .ok more) ∧
    ∀ part, part <+: taken → part ≠ taken → skip part = .error .truncated
  /-- What is wrong, and not only too short, stays wrong. -/
  error : ∀ e, skip bs = .error e → e ≠ .truncated → ∀ more, skip (bs ++ more) = .error e

theorem skipsLocally_skipValues {owed : ℕ} (hpos : 0 < owed) (bs : Bytes) :
    SkipsLocally (skipValues owed) bs where
  ok := by
    intro rest h
    have hpass : passValues owed bs = .ok ((), rest) := by
      rw [passValues, h]
      rfl
    obtain ⟨taken, hsplit, hmore⟩ := (isSelfDelimiting_passValues owed).ok hpass
    have hskip (more : Bytes) : skipValues owed (taken ++ more) = .ok more := by
      simpa [passValues, map_eq_ok_iff] using hmore more
    refine ⟨taken, ?_, hsplit, hskip, fun part hpart hne => ?_⟩
    · rintro rfl
      obtain ⟨owed, rfl⟩ := Nat.exists_eq_add_one.mpr hpos
      have hnone := skipValues_of_openValue_error (show openValue [] = .error .truncated from rfl) owed
      cases hnone.symm.trans (hskip [])
    · have hwhole := hmore []
      rw [List.append_nil] at hwhole
      have hcut := (isSelfDelimiting_passValues owed).truncated hwhole hpart hne
      rwa [passValues, map_eq_error_iff] at hcut
  error := by
    intro e h hne more
    have hpass : passValues owed bs = .error e := by rwa [passValues, map_eq_error_iff]
    have hmore := (isSelfDelimiting_passValues owed).error hpass hne more
    rwa [passValues, map_eq_error_iff] at hmore

/-- Skipping values ends, whatever the bytes: its recursion has one result, and opens at most one value
more than there are bytes. One value is skipped by its own bytes alone, and so are several: more bytes
after them are left as they are, and fewer bytes are reported as truncated. -/
theorem skipValues_local (bs : Bytes) :
    SkipsLocally skipValue bs ∧ (∀ owed, 1 ≤ owed → SkipsLocally (skipValues owed) bs) ∧
      (∀ owed, (∃ opened ≤ bs.length + 1, Skips owed bs (skipValues owed bs) opened) ∧
        ∀ result opened, Skips owed bs result opened → result = skipValues owed bs) ∧
      ReadError.truncated.message = "truncated msgpack" := by
  refine ⟨skipsLocally_skipValues Nat.one_pos bs, fun owed h => skipsLocally_skipValues h bs,
    fun owed => ?_, rfl⟩
  obtain ⟨opened, hskips, hopened, -⟩ := exists_skips owed bs
  exact ⟨⟨opened, hopened, hskips⟩, fun result opened h => h.skipValues_eq.symm⟩

/-- An array in an array, with a byte after them; and a map of more entries than there are bytes in memory,
in which the first key is of a kind that is not read. -/
theorem skipValues_local_nested :
    let nested : Bytes := [0x92, 0xc0, 0x91, 0x05]
    let huge : Bytes := [0xdf, 0xff, 0xff, 0xff, 0xff, 0xc1]
    (∀ more, skipValue (nested ++ more) = .ok more) ∧
      skipValue (nested.take 3) = .error .truncated ∧
      ∀ more, skipValues 2 (huge ++ more) = .error (.unsupported .reserved) := by
  intro nested huge
  obtain ⟨hnested, -⟩ := skipValues_local (nested ++ [0x07])
  obtain ⟨-, hhuge, -⟩ := skipValues_local huge
  have hread : skipValue (nested ++ [0x07]) = .ok [0x07] := by decide +kernel
  have hwrong : skipValues 2 huge = .error (.unsupported .reserved) := by decide +kernel
  obtain ⟨taken, -, hsplit, hmore, hpart⟩ := hnested.ok [0x07] hread
  obtain rfl := List.append_cancel_right hsplit
  exact ⟨hmore, hpart _ (List.take_prefix 3 nested) (by decide),
    (hhuge 2 (by decide)).error _ hwrong (by decide)⟩

end FalconAccount.Msgpack
