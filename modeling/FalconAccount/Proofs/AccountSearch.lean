import FalconAccount.Derivation
import Mathlib.Tactic

/-!
# What a search finds

A search goes through the counters in order. It either finds the account of the key with the least
counter off the curve or fails for all counters together, and every program that it finds has the same
size. A byte string of another length than that of a key is not searched for.
-/

namespace FalconAccount

theorem Bytes.toVector?_toList {n : ℕ} (bytes : Vector UInt8 n) :
    toVector? n bytes.toList = some bytes := by
  rw [toVector?, dif_pos bytes.length_toList]
  rfl

theorem PublicKey.ofBytes_toList (key : PublicKey) : ofBytes key.toList = .ok key := by
  rw [ofBytes, toList, Bytes.toVector?_toList]

theorem PublicKey.exists_toList {bs : Bytes} (h : bs.length = publicKeySize) :
    ∃ key : PublicKey, key.toList = bs :=
  ⟨⟨⟨bs.toArray, by simpa using h⟩⟩, rfl⟩

theorem PublicKey.ofBytes_of_length_ne {bs : Bytes} (h : bs.length ≠ publicKeySize) :
    ofBytes bs = .error (.publicKey bs.length) := by
  rw [ofBytes, Bytes.toVector?, dif_neg h]

namespace Derivation

/-- The account of the key for the least counter whose address is off the curve. -/
structure IsLeastOffCurve (key : PublicKey) (d : Derivation) : Prop where
  program : d.program = ControlProgram.ofKey key d.counter
  address : d.address = Address.ofProgram d.program.bytes
  offCurve : d.address.isOnCurve = false
  skipped : ∀ counter < d.counter, (candidate key counter).address.isOnCurve = true

theorem isQuantumSafe_eq_true_iff (d : Derivation) :
    d.isQuantumSafe = true ↔ d.address.isOnCurve = false := by
  rw [isQuantumSafe, Bool.not_eq_true']

theorem of_searchFrom {key : PublicKey} {counters : List UInt8} {d : Derivation}
    (h : searchFrom key counters = .ok d) :
    d = candidate key d.counter ∧ d.counter ∈ counters ∧ d.isQuantumSafe = true := by
  induction counters with
  | nil => cases h
  | cons counter counters ih =>
    rw [searchFrom] at h
    by_cases hsafe : (candidate key counter).isQuantumSafe = true
    · rw [if_pos hsafe] at h
      obtain rfl := Except.ok.inj h
      exact ⟨rfl, List.mem_cons_self, hsafe⟩
    · rw [if_neg hsafe] at h
      obtain ⟨hd, hmem, hd'⟩ := ih h
      exact ⟨hd, List.mem_cons_of_mem counter hmem, hd'⟩

theorem eq_exhausted_of_searchFrom {key : PublicKey} {counters : List UInt8}
    {e : ProtocolError} (h : searchFrom key counters = .error e) : e = .derivationExhausted := by
  induction counters with
  | nil =>
    cases h
    rfl
  | cons counter counters ih =>
    rw [searchFrom] at h
    by_cases hsafe : (candidate key counter).isQuantumSafe = true
    · rw [if_pos hsafe] at h
      cases h
    · rw [if_neg hsafe] at h
      exact ih h

theorem search_of_zero {key : PublicKey} (h : (candidate key 0).isQuantumSafe = true) :
    search key = .ok (candidate key 0) := by
  have hcounters : counters = 0 :: ((List.range 255).map Nat.succ).map UInt8.ofNat :=
    congrArg (List.map UInt8.ofNat) List.range_succ_eq_map
  rw [search, hcounters, searchFrom, if_pos h]

theorem searchFrom_eq_find? (key : PublicKey) (counters : List UInt8) :
    searchFrom key counters =
      (counters.find? fun counter => (candidate key counter).isQuantumSafe).elim
        (.error .derivationExhausted) fun counter => .ok (candidate key counter) := by
  induction counters with
  | nil => rfl
  | cons counter counters ih =>
    rw [searchFrom]
    by_cases hsafe : (candidate key counter).isQuantumSafe = true
    · have hfind : (counter :: counters).find? (fun counter => (candidate key counter).isQuantumSafe) =
          some counter := List.find?_cons_of_pos hsafe
      rw [if_pos hsafe, hfind]
      rfl
    · have hfind : (counter :: counters).find? (fun counter => (candidate key counter).isQuantumSafe) =
          counters.find? fun counter => (candidate key counter).isQuantumSafe :=
        List.find?_cons_of_neg hsafe
      rw [if_neg hsafe, hfind, ih]

theorem mem_counters (counter : UInt8) : counter ∈ counters :=
  List.mem_map.mpr ⟨counter.toNat, List.mem_range.mpr counter.toNat_lt, UInt8.ofNat_toNat⟩

/-- The counters are in their order, so the first of a kind is the least. -/
theorem find?_counters_eq_some_iff {p : UInt8 → Bool} {counter : UInt8} :
    counters.find? p = some counter ↔ p counter = true ∧ ∀ other < counter, p other = false := by
  rw [counters, List.find?_map, Option.map_eq_some_iff]
  simp only [List.find?_range_eq_some, List.mem_range, Function.comp_apply, Bool.not_eq_eq_eq_not,
    Bool.not_true]
  constructor
  · rintro ⟨n, ⟨hp, hn, hbefore⟩, rfl⟩
    refine ⟨hp, fun other hlt => ?_⟩
    have hother : other.toNat < n := by
      rw [UInt8.lt_iff_toNat_lt, UInt8.toNat_ofNat_of_lt' hn] at hlt
      exact hlt
    have := hbefore other.toNat hother
    rwa [UInt8.ofNat_toNat] at this
  · rintro ⟨hp, hbefore⟩
    refine ⟨counter.toNat, ⟨?_, counter.toNat_lt, fun n hn => hbefore _ ?_⟩, UInt8.ofNat_toNat⟩
    · rwa [UInt8.ofNat_toNat]
    · rw [UInt8.lt_iff_toNat_lt, UInt8.toNat_ofNat_of_lt' (hn.trans counter.toNat_lt)]
      exact hn

/-- A search succeeds with the account of the least counter off the curve and with no other. -/
theorem search_eq_ok_iff {key : PublicKey} {d : Derivation} :
    search key = .ok d ↔ d.IsLeastOffCurve key := by
  have hfound : search key = .ok d ↔ d = candidate key d.counter ∧
      counters.find? (fun counter => (candidate key counter).isQuantumSafe) = some d.counter := by
    rw [search, searchFrom_eq_find?]
    cases hfind : counters.find? fun counter => (candidate key counter).isQuantumSafe with
    | none => simp
    | some counter =>
      constructor
      · intro h
        obtain rfl := Except.ok.inj h
        exact ⟨rfl, rfl⟩
      · rintro ⟨hd, hcounter⟩
        rw [hcounter]
        exact congrArg Except.ok hd.symm
  rw [hfound, find?_counters_eq_some_iff]
  constructor
  · rintro ⟨hd, hsafe, hbefore⟩
    rw [← hd] at hsafe
    refine ⟨congrArg Derivation.program hd, rfl, (isQuantumSafe_eq_true_iff d).mp hsafe, ?_⟩
    intro counter hlt
    simpa [isQuantumSafe] using hbefore counter hlt
  · rintro ⟨hprogram, -, hoff, hskipped⟩
    have hd : d = candidate key d.counter := by
      rw [candidate, ← hprogram]
    refine ⟨hd, ?_, fun counter hlt => ?_⟩
    · rw [← hd]
      exact (isQuantumSafe_eq_true_iff d).mpr hoff
    · rw [isQuantumSafe, hskipped counter hlt, Bool.not_true]

theorem search_eq_error_iff {key : PublicKey} :
    search key = .error .derivationExhausted ↔
      ∀ counter, (candidate key counter).address.isOnCurve = true := by
  rw [search, searchFrom_eq_find?]
  constructor
  · intro h counter
    cases hfind : counters.find? fun counter => (candidate key counter).isQuantumSafe with
    | none =>
      have := List.find?_eq_none.mp hfind counter (mem_counters counter)
      simpa [isQuantumSafe] using this
    | some found => rw [hfind] at h; cases h
  · intro h
    have hnone : counters.find? (fun counter => (candidate key counter).isQuantumSafe) = none :=
      List.find?_eq_none.mpr fun counter _ => by simp [isQuantumSafe, h counter]
    rw [hnone]
    rfl

theorem exists_search_eq_ok_iff {key : PublicKey} :
    (∃ d, search key = .ok d) ↔ ∃ counter, (candidate key counter).address.isOnCurve = false := by
  constructor
  · rintro ⟨d, h⟩
    obtain ⟨hd, -, hsafe⟩ := of_searchFrom h
    refine ⟨d.counter, ?_⟩
    rw [← hd]
    exact (isQuantumSafe_eq_true_iff d).mp hsafe
  · rintro ⟨counter, hoff⟩
    cases h : search key with
    | ok d => exact ⟨d, rfl⟩
    | error e =>
      obtain rfl := eq_exhausted_of_searchFrom h
      rw [search_eq_error_iff.mp h counter] at hoff
      cases hoff

theorem length_program_of_search {key : PublicKey} {d : Derivation} (h : search key = .ok d) :
    d.program.bytes.length = ControlProgram.size := by
  rw [(of_searchFrom h).1]
  exact ControlProgram.length_ofKey key d.counter

end Derivation

/-- Naming what a step gives, the step and its input being known. -/
theorem bind_return_of_ok {ε ε' α β γ : Type} (f : ε → ε') (a : α) (step : α → Except ε' β)
    (name : β → γ) :
    (do
      let a ← (Except.ok a).mapError f
      let b ← step a
      return name b) = (step a).map name := by
  simp only [Except.mapError, bind, Except.bind]
  cases step a with
  | error e => rfl
  | ok b => rfl

theorem deriveAddress_toList (key : PublicKey) :
    deriveAddress key.toList = (Derivation.search key).map (·.address.text) := by
  unfold deriveAddress
  rw [key.ofBytes_toList]
  exact bind_return_of_ok _ key Derivation.search (·.address.text)

theorem deriveAddress_of_length_ne {bytes : Bytes} (h : bytes.length ≠ publicKeySize) :
    deriveAddress bytes = .error (.invalidKeySize (.publicKey bytes.length)) := by
  rw [deriveAddress, PublicKey.ofBytes_of_length_ne h]
  rfl

/-- A search succeeds exactly if some counter is off the curve, and then with the account of the least
one, all before it being on the curve; otherwise the counters are exhausted. Deriving an address from
bytes gives the text of that account's address for the bytes of a key, which are all strings of 1793
bytes, and refuses every other length. -/
theorem search_finds_least :
    (∀ key : PublicKey,
      ((∃ d, Derivation.search key = .ok d) ↔
        ∃ counter, (Derivation.candidate key counter).address.isOnCurve = false) ∧
      (∀ d, Derivation.search key = .ok d ↔ d.IsLeastOffCurve key) ∧
      (Derivation.search key = .error .derivationExhausted ↔
        ∀ counter, (Derivation.candidate key counter).address.isOnCurve = true) ∧
      deriveAddress key.toList = (Derivation.search key).map (·.address.text)) ∧
    ∀ bytes : Bytes,
      ((∃ key : PublicKey, key.toList = bytes) ↔ bytes.length = 1793) ∧
      (deriveAddress bytes = .error (.invalidKeySize (.publicKey bytes.length)) ↔
        bytes.length ≠ 1793) := by
  refine ⟨fun key => ⟨Derivation.exists_search_eq_ok_iff, fun d => Derivation.search_eq_ok_iff,
    Derivation.search_eq_error_iff, deriveAddress_toList key⟩, fun bytes => ⟨?_, ?_⟩⟩
  · constructor
    · rintro ⟨key, rfl⟩
      exact key.length_toList
    · exact PublicKey.exists_toList
  · constructor
    · intro h hlength
      obtain ⟨key, rfl⟩ := PublicKey.exists_toList hlength
      rw [deriveAddress_toList] at h
      cases hsearch : Derivation.search key with
      | ok d => rw [hsearch] at h; cases h
      | error e =>
        rw [hsearch, Derivation.eq_exhausted_of_searchFrom hsearch] at h
        cases h
    · exact deriveAddress_of_length_ne

def onesKey : PublicKey := ⟨Vector.replicate publicKeySize 1⟩

theorem search_onesKey : Derivation.search onesKey = .ok (Derivation.candidate onesKey 0) :=
  Derivation.search_of_zero (by decide +kernel)

end FalconAccount
