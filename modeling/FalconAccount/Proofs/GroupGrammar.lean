import FalconAccount.Proofs.GroupWire
import FalconAccount.Proofs.MsgpackGrammar

/-!
# The grammar of groups

The bytes from which identifiers are read are exactly the groups: at most sixteen members one after
another, each a map with the key of a transaction. Members and entries are told apart in one way only,
and whatever the bytes are, the reader never looks outside of them.
-/

namespace FalconAccount

open Msgpack

namespace GroupReader

/-- An entry of a member as it is written: a key that is a text, and a value. -/
@[ext]
structure Entry where
  header : Bytes
  key : Bytes
  value : Bytes
  isTextHeader : IsTextHeader header key.length
  isValue : IsValue value

def Entry.bytes (e : Entry) : Bytes := e.header ++ (e.key ++ e.value)

def Entry.IsTransaction (e : Entry) : Prop := e.key = Bytes.ofString "txn"

instance : DecidablePred Entry.IsTransaction := fun e =>
  inferInstanceAs (Decidable (e.key = Bytes.ofString "txn"))

/-- A member of a group as it is written: a map with a transaction among its entries. -/
@[ext]
structure Member where
  header : Bytes
  entries : List Entry
  isMapHeader : IsMapHeader header entries.length
  hasTransaction : ∃ e ∈ entries, e.IsTransaction

namespace Member

def bytes (m : Member) : Bytes := m.header ++ m.entries.flatMap Entry.bytes

/-- The entries of a member that are for its transaction, in their order. -/
def transactions (m : Member) : List Entry := m.entries.filter Entry.IsTransaction

theorem transactions_ne_nil (m : Member) : m.transactions ≠ [] := by
  obtain ⟨e, he, ht⟩ := m.hasTransaction
  exact List.ne_nil_of_mem (List.mem_filter.mpr ⟨he, decide_eq_true ht⟩)

/-- The encoding of the transaction: of several, the last. -/
def transaction (m : Member) : Bytes := (m.transactions.getLast m.transactions_ne_nil).value

def id (m : Member) : TxId := ⟨sha512_256 (Bytes.ofString "TX") m.transaction⟩

end Member

/-- What is kept of the entries: the last transaction, or what was found before. The bytes `rest` come
after the entries. -/
def kept (found : Option Stretch) (rest : Bytes) : List Entry → Option Stretch
  | [] => found
  | e :: entries =>
    let after := entries.flatMap Entry.bytes ++ rest
    kept (if e.IsTransaction then some ⟨e.value ++ after, after⟩ else found) rest entries

theorem map_bytes_kept (found : Option Stretch) (rest : Bytes) (entries : List Entry) :
    (kept found rest entries).map Stretch.bytes =
      ((entries.filter Entry.IsTransaction).getLast?.map Entry.value).or
        (found.map Stretch.bytes) := by
  induction entries generalizing found with
  | nil => rfl
  | cons e entries ih =>
    rw [kept, ih]
    by_cases he : e.IsTransaction
    · rw [if_pos he, List.filter_cons_of_pos (by simpa using he), List.getLast?_cons,
        Option.map_some, Stretch.bytes_append]
      cases (entries.filter Entry.IsTransaction).getLast? <;> rfl
    · rw [if_neg he, List.filter_cons_of_neg (by simpa using he)]

theorem Member.exists_kept (m : Member) (rest : Bytes) :
    ∃ body : Stretch, kept none rest m.entries = some body ∧ body.bytes = m.transaction := by
  have hkept := map_bytes_kept none rest m.entries
  rw [← Member.transactions, List.getLast?_eq_some_getLast m.transactions_ne_nil] at hkept
  exact Option.map_eq_some_iff.mp hkept

theorem exists_isTransaction_of_kept {rest : Bytes} {entries : List Entry} {body : Stretch}
    (h : kept none rest entries = some body) : ∃ e ∈ entries, e.IsTransaction := by
  by_contra hnone
  have hfilter : entries.filter Entry.IsTransaction = [] := by
    rw [List.filter_eq_nil_iff]
    intro e he ht
    exact hnone ⟨e, he, of_decide_eq_true ht⟩
  have hkept := map_bytes_kept none rest entries
  rw [h, hfilter] at hkept
  cases hkept

variable {bs rest : Bytes}

theorem readEntries_succ_eq_ok_iff {n : ℕ} {found : Option Stretch} {result : Option Stretch × Bytes} :
    readEntries (n + 1) found bs = .ok result ↔
      ∃ (e : Entry) (after : Bytes), bs = e.bytes ++ after ∧
        readEntries n (if e.IsTransaction then some ⟨e.value ++ after, after⟩ else found) after =
          .ok result := by
  rw [readEntries, bind_eq_ok_iff]
  constructor
  · rintro ⟨⟨key, start⟩, hkey, hrest⟩
    obtain ⟨after, hskip, hread⟩ := bind_eq_ok_iff.mp hrest
    obtain ⟨header, hheader, rfl⟩ := readKey_eq_ok_iff.mp hkey
    obtain ⟨value, hvalue, rfl⟩ := skipValue_eq_ok_iff.mp hskip
    exact ⟨⟨header, key, value, hheader, hvalue⟩, after, by simp [Entry.bytes], hread⟩
  · rintro ⟨e, after, rfl, hread⟩
    refine ⟨(e.key, e.value ++ after), readKey_eq_ok_iff.mpr ⟨_, e.isTextHeader, ?_⟩, ?_⟩
    · simp [Entry.bytes]
    · exact bind_eq_ok_iff.mpr ⟨after, skipValue_eq_ok_iff.mpr ⟨_, e.isValue, rfl⟩, hread⟩

theorem readEntries_eq_ok_iff {n : ℕ} {found result : Option Stretch} :
    readEntries n found bs = .ok (result, rest) ↔
      ∃ entries : List Entry, entries.length = n ∧ bs = entries.flatMap Entry.bytes ++ rest ∧
        kept found rest entries = result := by
  induction n generalizing found bs with
  | zero =>
    constructor
    · intro h
      obtain ⟨rfl, rfl⟩ := Prod.mk.inj (Except.ok.inj h)
      exact ⟨[], rfl, rfl, rfl⟩
    · rintro ⟨entries, hlength, rfl, rfl⟩
      obtain rfl := List.eq_nil_of_length_eq_zero hlength
      rfl
  | succ n ih =>
    rw [readEntries_succ_eq_ok_iff]
    constructor
    · rintro ⟨e, after, rfl, hread⟩
      obtain ⟨entries, rfl, rfl, hkept⟩ := ih.mp hread
      exact ⟨e :: entries, rfl, by simp, hkept⟩
    · rintro ⟨entries, hlength, rfl, hkept⟩
      match entries, hlength, hkept with
      | e :: entries, hlength, hkept =>
        exact ⟨e, _, by simp, ih.mpr ⟨entries, Nat.succ.inj hlength, rfl, hkept⟩⟩

theorem exists_readMember_iff {encoding : Bytes} :
    (∃ body : Stretch, readMember bs = .ok (some body, rest) ∧ body.bytes = encoding) ↔
      ∃ m : Member, bs = m.bytes ++ rest ∧ m.transaction = encoding := by
  constructor
  · rintro ⟨body, h, rfl⟩
    obtain ⟨⟨count, start⟩, hheader, hread⟩ := bind_eq_ok_iff.mp h
    obtain ⟨header, hmap, rfl⟩ := readMapHeader_eq_ok_iff.mp hheader
    obtain ⟨entries, rfl, rfl, hkept⟩ := readEntries_eq_ok_iff.mp hread
    let m : Member := ⟨header, entries, hmap, exists_isTransaction_of_kept hkept⟩
    obtain ⟨last, hlast, hbytes⟩ := m.exists_kept rest
    obtain rfl := Option.some.inj (hkept.symm.trans hlast)
    exact ⟨m, by simp [Member.bytes, m], hbytes.symm⟩
  · rintro ⟨m, rfl, rfl⟩
    obtain ⟨body, hkept, hbytes⟩ := m.exists_kept rest
    refine ⟨body, bind_eq_ok_iff.mpr ⟨(m.entries.length, m.entries.flatMap Entry.bytes ++ rest), ?_, ?_⟩,
      hbytes⟩
    · exact readMapHeader_eq_ok_iff.mpr ⟨m.header, m.isMapHeader, by simp [Member.bytes]⟩
    · exact readEntries_eq_ok_iff.mpr ⟨m.entries, rfl, rfl, hkept⟩

theorem isSized_ne_nil {base limit n : ℕ} {tags : List (UInt8 × ℕ)} {header : Bytes}
    (h : IsSized base limit tags header n) : header ≠ [] := by
  cases h <;> simp

theorem Member.bytes_append_ne_nil (m : Member) (rest : Bytes) : m.bytes ++ rest ≠ [] := by
  simp [Member.bytes, isSized_ne_nil m.isMapHeader]

theorem readMembers_succ_eq_ok_iff {room position : ℕ} {ids : List TxId} (hne : bs ≠ []) :
    readMembers (room + 1) position bs = .ok ids ↔
      ∃ (m : Member) (rest : Bytes) (others : List TxId), bs = m.bytes ++ rest ∧
        readMembers room (position + (bs.length - rest.length)) rest = .ok others ∧
          ids = m.id :: others := by
  cases bs with
  | nil => exact absurd rfl hne
  | cons b bs =>
    rw [readMembers]
    constructor
    · intro h
      split at h
      · cases h
      · cases h
      · next body rest hmember =>
        obtain ⟨others, hothers, hids⟩ := bind_eq_ok_iff.mp h
        obtain ⟨m, hm, htransaction⟩ := exists_readMember_iff.mp ⟨body, hmember, rfl⟩
        refine ⟨m, rest, others, hm, hothers, ?_⟩
        rw [← pure_eq_ok_iff.mp hids, Member.id, htransaction]
        rfl
    · rintro ⟨m, rest, others, hm, hothers, rfl⟩
      obtain ⟨body, hmember, hbytes⟩ := exists_readMember_iff.mpr ⟨m, hm, rfl⟩
      rw [hmember]
      refine bind_eq_ok_iff.mpr ⟨others, hothers, ?_⟩
      rw [hbytes]
      rfl
    · exact hne

theorem flatMap_bytes_cons_ne_nil (m : Member) (members : List Member) :
    (m :: members).flatMap Member.bytes ≠ [] := by
  rw [List.flatMap_cons]
  exact m.bytes_append_ne_nil _

/-- Identifiers are read if and only if the bytes are members, and no more than there is room for. -/
theorem readMembers_eq_ok_iff {room position : ℕ} {ids : List TxId} :
    readMembers room position bs = .ok ids ↔
      ∃ members : List Member, members.length ≤ room ∧ members.flatMap Member.bytes = bs ∧
        members.map Member.id = ids := by
  induction room generalizing position bs ids with
  | zero =>
    constructor
    · intro h
      by_cases hne : bs = []
      · subst hne
        exact ⟨[], le_rfl, rfl, by simpa [readMembers] using h⟩
      · rw [readMembers_zero hne] at h
        cases h
    · rintro ⟨members, hroom, rfl, rfl⟩
      obtain rfl := List.eq_nil_of_length_eq_zero (Nat.le_zero.mp hroom)
      rfl
  | succ room ih =>
    constructor
    · intro h
      by_cases hne : bs = []
      · subst hne
        exact ⟨[], Nat.zero_le _, rfl, by simpa [readMembers] using h⟩
      · obtain ⟨m, rest, others, rfl, hothers, rfl⟩ := (readMembers_succ_eq_ok_iff hne).mp h
        obtain ⟨members, hroom, rfl, rfl⟩ := ih.mp hothers
        exact ⟨m :: members, Nat.succ_le_succ hroom, rfl, rfl⟩
    · rintro ⟨members, hroom, rfl, rfl⟩
      cases members with
      | nil => rfl
      | cons m members =>
        rw [readMembers_succ_eq_ok_iff (flatMap_bytes_cons_ne_nil m members)]
        exact ⟨m, members.flatMap Member.bytes, members.map Member.id, rfl,
          ih.mpr ⟨members, Nat.le_of_succ_le_succ hroom, rfl, rfl⟩, rfl⟩

/-!
Members, entries, headers and values are not written with their lengths, but none is the start of
another: the reader finds the end of each from its own bytes.
-/

theorem Entry.bytes_append_inj {e₁ e₂ : Entry} {rest₁ rest₂ : Bytes}
    (h : e₁.bytes ++ rest₁ = e₂.bytes ++ rest₂) : e₁ = e₂ ∧ rest₁ = rest₂ := by
  have hkey (e : Entry) (rest : Bytes) : readKey (e.bytes ++ rest) = .ok (e.key, e.value ++ rest) :=
    readKey_eq_ok_iff.mpr ⟨e.header, e.isTextHeader, by simp [Entry.bytes]⟩
  have hvalue (e : Entry) (rest : Bytes) : skipValue (e.value ++ rest) = .ok rest :=
    skipValue_eq_ok_iff.mpr ⟨e.value, e.isValue, rfl⟩
  obtain ⟨hk, hv⟩ := Prod.mk.inj (Except.ok.inj ((hkey e₁ rest₁).symm.trans (h ▸ hkey e₂ rest₂)))
  obtain rfl : rest₁ = rest₂ := Except.ok.inj ((hvalue e₁ rest₁).symm.trans (hv ▸ hvalue e₂ rest₂))
  have hv := List.append_cancel_right hv
  have hh : e₁.header = e₂.header := by
    have hbytes := List.append_cancel_right h
    rw [Entry.bytes, Entry.bytes, hk, hv] at hbytes
    exact List.append_cancel_right hbytes
  exact ⟨Entry.ext hh hk hv, rfl⟩

theorem flatMap_entries_append_inj {entries₁ entries₂ : List Entry} {rest₁ rest₂ : Bytes}
    (hlength : entries₁.length = entries₂.length)
    (h : entries₁.flatMap Entry.bytes ++ rest₁ = entries₂.flatMap Entry.bytes ++ rest₂) :
    entries₁ = entries₂ ∧ rest₁ = rest₂ := by
  induction entries₁ generalizing entries₂ with
  | nil =>
    obtain rfl := List.eq_nil_of_length_eq_zero hlength.symm
    exact ⟨rfl, h⟩
  | cons e₁ entries₁ ih =>
    match entries₂, hlength, h with
    | e₂ :: entries₂, hlength, h =>
      simp only [List.flatMap_cons, List.append_assoc] at h
      obtain ⟨rfl, hrest⟩ := Entry.bytes_append_inj h
      obtain ⟨rfl, rfl⟩ := ih (Nat.succ.inj hlength) hrest
      exact ⟨rfl, rfl⟩

theorem Member.bytes_append_inj {m₁ m₂ : Member} {rest₁ rest₂ : Bytes}
    (h : m₁.bytes ++ rest₁ = m₂.bytes ++ rest₂) : m₁ = m₂ ∧ rest₁ = rest₂ := by
  have hheader (m : Member) (rest : Bytes) : readMapHeader (m.bytes ++ rest) =
      .ok (m.entries.length, m.entries.flatMap Entry.bytes ++ rest) :=
    readMapHeader_eq_ok_iff.mpr ⟨m.header, m.isMapHeader, by simp [Member.bytes]⟩
  obtain ⟨hlength, hentries⟩ :=
    Prod.mk.inj (Except.ok.inj ((hheader m₁ rest₁).symm.trans (h ▸ hheader m₂ rest₂)))
  obtain ⟨hsame, rfl⟩ := flatMap_entries_append_inj hlength hentries
  have hh : m₁.header = m₂.header := by
    have hbytes := List.append_cancel_right h
    rw [Member.bytes, Member.bytes, hsame] at hbytes
    exact List.append_cancel_right hbytes
  exact ⟨Member.ext hh hsame, rfl⟩

/-- Bytes are members one after another in one way at most. -/
theorem members_unique {members₁ members₂ : List Member}
    (h : members₁.flatMap Member.bytes = members₂.flatMap Member.bytes) : members₁ = members₂ := by
  induction members₁ generalizing members₂ with
  | nil =>
    cases members₂ with
    | nil => rfl
    | cons m₂ members₂ => exact absurd h.symm (flatMap_bytes_cons_ne_nil m₂ members₂)
  | cons m₁ members₁ ih =>
    cases members₂ with
    | nil => exact absurd h (flatMap_bytes_cons_ne_nil m₁ members₁)
    | cons m₂ members₂ =>
      obtain ⟨rfl, hrest⟩ := Member.bytes_append_inj h
      rw [ih hrest]

/-- Reading `group`, the reader can come to where `bs` is left: after the marker or other bytes of a
header, after a key or a value. Nothing is assumed of the bytes, and the reader may fail after that. -/
inductive Reaches (group : Bytes) : Bytes → Prop
  | start : Reaches group group
  | marker {bs rest : Bytes} {marker : Marker} (h : Reaches group bs)
    (hread : takeMarker bs = .ok (marker, rest)) : Reaches group rest
  | bytes {bs taken rest : Bytes} {n : ℕ} (h : Reaches group bs)
    (hread : takeBytes n bs = .ok (taken, rest)) : Reaches group rest
  | header {bs rest : Bytes} {count : ℕ} (h : Reaches group bs)
    (hread : readMapHeader bs = .ok (count, rest)) : Reaches group rest
  | key {bs key rest : Bytes} (h : Reaches group bs) (hread : readKey bs = .ok (key, rest)) :
    Reaches group rest
  | value {bs rest : Bytes} (h : Reaches group bs) (hread : skipValue bs = .ok rest) :
    Reaches group rest

section Slices

variable {group : Bytes}

theorem Reaches.isSuffix (h : Reaches group bs) : bs <:+ group := by
  induction h with
  | start => exact List.suffix_rfl
  | @marker bs _ _ _ hread ih =>
    cases bs with
    | nil => cases hread
    | cons b bs =>
      obtain ⟨_, rfl⟩ := Prod.mk.inj (Except.ok.inj hread)
      exact (List.suffix_cons b _).trans ih
  | bytes _ hread ih =>
    obtain ⟨_, rfl⟩ := takeBytes_eq_ok_iff.mp hread
    exact (List.suffix_append _ _).trans ih
  | header _ hread ih =>
    obtain ⟨header, _, rfl⟩ := readMapHeader_eq_ok_iff.mp hread
    exact (List.suffix_append header _).trans ih
  | @key _ key _ _ hread ih =>
    obtain ⟨header, _, rfl⟩ := readKey_eq_ok_iff.mp hread
    exact ((List.suffix_append key _).trans (List.suffix_append header _)).trans ih
  | value _ hread ih =>
    obtain ⟨value, _, rfl⟩ := skipValue_eq_ok_iff.mp hread
    exact (List.suffix_append value _).trans ih

theorem Reaches.bytes_slice {n : ℕ} {taken : Bytes} (h : Reaches group bs)
    (hread : takeBytes n bs = .ok (taken, rest)) : ∃ before, group = before ++ taken ++ rest := by
  obtain ⟨before, hbefore⟩ := h.isSuffix
  obtain ⟨_, rfl⟩ := takeBytes_eq_ok_iff.mp hread
  exact ⟨before, by simp [← hbefore]⟩

theorem Reaches.key_slice {key : Bytes} (h : Reaches group bs) (hread : readKey bs = .ok (key, rest)) :
    ∃ before, group = before ++ key ++ rest := by
  obtain ⟨before, hbefore⟩ := h.isSuffix
  obtain ⟨header, _, rfl⟩ := readKey_eq_ok_iff.mp hread
  exact ⟨before ++ header, by simp [← hbefore]⟩

theorem Reaches.value_slice (h : Reaches group bs) (hread : skipValue bs = .ok rest) :
    ∃ before, before.length + bs.length = group.length ∧
      group = before ++ Stretch.bytes ⟨bs, rest⟩ ++ rest := by
  obtain ⟨before, hbefore⟩ := h.isSuffix
  obtain ⟨value, _, rfl⟩ := skipValue_eq_ok_iff.mp hread
  refine ⟨before, ?_, ?_⟩
  · rw [← hbefore]
    exact List.length_append.symm
  · rw [Stretch.bytes_append, List.append_assoc, hbefore]

/-- What is kept after some entries was found before, or is the stretch of a value that was skipped. -/
theorem Reaches.readEntries {n : ℕ} {found kept : Option Stretch} (h : Reaches group bs)
    (hfound : ∀ s ∈ found, Reaches group s.start ∧ skipValue s.start = .ok s.after)
    (hread : GroupReader.readEntries n found bs = .ok (kept, rest)) :
    Reaches group rest ∧ ∀ s ∈ kept, Reaches group s.start ∧ skipValue s.start = .ok s.after := by
  induction n generalizing found bs with
  | zero =>
    obtain ⟨rfl, rfl⟩ := Prod.mk.inj (Except.ok.inj hread)
    exact ⟨h, hfound⟩
  | succ n ih =>
    obtain ⟨⟨key, start⟩, hkey, hvalue⟩ := bind_eq_ok_iff.mp hread
    obtain ⟨after, hskip, hrest⟩ := bind_eq_ok_iff.mp hvalue
    refine ih ((h.key hkey).value hskip) (fun s hs => ?_) hrest
    split_ifs at hs
    · obtain rfl := Option.some.inj hs
      exact ⟨h.key hkey, hskip⟩
    · exact hfound s hs

theorem Reaches.readMember {body : Option Stretch} (h : Reaches group bs)
    (hread : GroupReader.readMember bs = .ok (body, rest)) :
    Reaches group rest ∧ ∀ s ∈ body, Reaches group s.start ∧ skipValue s.start = .ok s.after := by
  obtain ⟨⟨count, start⟩, hheader, hentries⟩ := bind_eq_ok_iff.mp hread
  exact (h.header hheader).readEntries (by simp) hentries

end Slices

end GroupReader

open GroupReader

/-- Identifiers are read exactly from a group of at most sixteen members, one for each, as a hash of the
bytes of its last transaction. Bytes are members one after another in one way at most. Wherever the
reader comes, in a group or in other bytes, what it takes is a slice of these bytes, of a value the slice
between its two offsets; and the transaction of a member is one of these values. -/
theorem transactionIds_grammar (group : Bytes) :
    (∀ texts : List String, (transactionIds group).map (·.map TxId.text) = .ok texts ↔
      ∃ members : List Member, members.length ≤ 16 ∧ members.flatMap Member.bytes = group ∧
        texts = members.map fun m =>
          Base32.encode (sha512_256 [] (Bytes.ofString "TX" ++ m.transaction)).toList) ∧
    (∀ members₁ members₂ : List Member, members₁.flatMap Member.bytes = group →
      members₂.flatMap Member.bytes = group → members₁ = members₂) ∧
    ∀ bs, Reaches group bs →
      (∀ n taken rest, takeBytes n bs = .ok (taken, rest) → ∃ before, group = before ++ taken ++ rest) ∧
      (∀ key rest, readKey bs = .ok (key, rest) → ∃ before, group = before ++ key ++ rest) ∧
      (∀ rest, skipValue bs = .ok rest → ∃ before, before.length + bs.length = group.length ∧
        group = before ++ Stretch.bytes ⟨bs, rest⟩ ++ rest) ∧
      ∀ body rest, readMember bs = .ok (body, rest) →
        Reaches group rest ∧ ∀ s ∈ body, Reaches group s.start ∧ skipValue s.start = .ok s.after := by
  refine ⟨fun texts => ?_, fun members₁ members₂ h₁ h₂ => members_unique (h₁.trans h₂.symm),
    fun bs h => ⟨fun n taken rest => h.bytes_slice, fun key rest => h.key_slice,
      fun rest => h.value_slice, fun body rest => h.readMember⟩⟩
  rw [map_eq_ok_iff]
  constructor
  · rintro ⟨ids, hids, rfl⟩
    obtain ⟨members, hroom, hbytes, rfl⟩ := readMembers_eq_ok_iff.mp hids
    exact ⟨members, hroom, hbytes, List.map_map⟩
  · rintro ⟨members, hroom, hbytes, rfl⟩
    exact ⟨members.map Member.id, readMembers_eq_ok_iff.mpr ⟨members, hroom, hbytes, rfl⟩,
      List.map_map⟩

/-- Two members whose headers are longer than they need be. In the second the transaction is an array in
an array, under the second of two keys. -/
theorem transactionIds_grammar_longHeaders :
    let first : Bytes := [0xde, 0, 1, 0xd9, 3, 0x74, 0x78, 0x6e, 0xd3, 0, 0, 0, 0, 0, 0, 0, 1]
    let second : Bytes := [0x82, 0xa3, 0x74, 0x78, 0x6e, 0xc0, 0xa3, 0x74, 0x78, 0x6e, 0x91, 0x91, 5]
    (transactionIds (first ++ second)).map (·.map TxId.text) =
        .ok ([[0xd3, 0, 0, 0, 0, 0, 0, 0, 1], [0x91, 0x91, 5]].map fun txn =>
          Base32.encode (sha512_256 [] (Bytes.ofString "TX" ++ txn)).toList) := by
  intro first second
  have hfive : IsValue [0x91, 0x91, 5] := by
    have hnumber : IsValue [5] := .scalar (.positive (show 5 < 128 by decide))
    have harray {item : Bytes} (h : IsValue item) : IsValue ([0x91] ++ [item].flatten) :=
      .array (.short (show 1 < 16 by decide)) (by simpa using h)
    exact harray (harray hnumber)
  let key : Bytes := [0x74, 0x78, 0x6e]
  let m₁ : Member :=
    { header := [0xde, 0, 1]
      entries := [⟨[0xd9, 3], key, [0xd3, 0, 0, 0, 0, 0, 0, 0, 1], .long (by decide),
        .scalar (.number (by decide))⟩]
      isMapHeader := .long (by decide)
      hasTransaction := ⟨_, List.mem_cons_self, rfl⟩ }
  let m₂ : Member :=
    { header := [0x82]
      entries := [⟨[0xa3], key, [0xc0], .short (show 3 < 32 by decide), .scalar (.constant (by decide))⟩,
        ⟨[0xa3], key, [0x91, 0x91, 5], .short (show 3 < 32 by decide), hfive⟩]
      isMapHeader := .short (show 2 < 16 by decide)
      hasTransaction := ⟨_, List.mem_cons_self, rfl⟩ }
  exact ((transactionIds_grammar (first ++ second)).1 _).mpr ⟨[m₁, m₂], show 2 ≤ 16 by decide, rfl, rfl⟩

end FalconAccount
