import FalconAccount.Msgpack.Reader
import FalconAccount.Msgpack.Value
import FalconAccount.Proofs.ByteNumbers

/-!
# Written values are skipped whole

The reader knows nothing of the writer, but it finds the end of every written value: of each header in
each of its widths, and of arrays and maps nested in any way. What comes after a value is not looked at.
Sizes and counts are assumed to fit into the four bytes of the widest header.
-/

namespace FalconAccount.Msgpack

/-- Every size and count in the value fits into 32 bits. -/
inductive Value.Fits : Value → Prop
  | uint (n : UInt64) : Fits (.uint n)
  | str {text : String} (h : (Bytes.ofString text).length < UInt32.size) : Fits (.str text)
  | bin {bytes : Bytes} (h : bytes.length < UInt32.size) : Fits (.bin bytes)
  | array {items : List Value} (h : items.length < UInt32.size) (hs : ∀ item ∈ items, Fits item) :
    Fits (.array items)
  | map {entries : List (String × Value)} (h : entries.length < UInt32.size)
    (hk : ∀ entry ∈ entries, (Bytes.ofString entry.1).length < UInt32.size)
    (hs : ∀ entry ∈ entries, Fits entry.2) : Fits (.map entries)

theorem Marker.ofByte_fixPos {n : ℕ} (h : n < 128) : ofByte (UInt8.ofNat n) = .fixPos n := by
  revert n
  decide

theorem Marker.ofByte_fixMap {entries : ℕ} (h : entries < 16) :
    ofByte (UInt8.ofNat (0x80 + entries)) = .fixMap entries := by
  revert entries
  decide

theorem Marker.ofByte_fixArray {items : ℕ} (h : items < 16) :
    ofByte (UInt8.ofNat (0x90 + items)) = .fixArray items := by
  revert items
  decide

theorem Marker.ofByte_fixStr {size : ℕ} (h : size < 32) :
    ofByte (UInt8.ofNat (0xa0 + size)) = .fixStr size := by
  revert size
  decide

theorem takeBytes_append (bs rest : Bytes) : takeBytes bs.length (bs ++ rest) = .ok (bs, rest) := by
  rw [takeBytes, Bytes.dropExact_append]
  simp

theorem takeNat_ofNat_append (width : ℕ) {n : ℕ} (h : n < 256 ^ width) (rest : Bytes) :
    takeNat width (Bytes.ofNat width n ++ rest) = .ok (n, rest) := by
  have htake := takeBytes_append (Bytes.ofNat width n) rest
  rw [Bytes.length_ofNat] at htake
  rw [takeNat, htake]
  change Except.ok (Bytes.toNat (Bytes.ofNat width n), rest) = _
  rw [Bytes.toNat_ofNat h]

/-- The marker of a value and what it says about the body. -/
def readHead (bs : Bytes) : Except ReadError (Body × Bytes) := do
  let (marker, rest) ← takeMarker bs
  readBody marker rest

theorem openValue_of_readHead {bs rest after : Bytes} {body : Body}
    (h : readHead bs = .ok (body, rest)) (hd : Bytes.dropExact body.payload rest = some after) :
    openValue bs = .ok (body.children, after) := by
  cases bs with
  | nil => simp [readHead, takeMarker, bind, Except.bind] at h
  | cons b bs =>
    have hbody : readBody (.ofByte b) bs = .ok (body, rest) := h
    rw [openValue, takeMarker]
    simp only [bind, Except.bind, hbody, hd]

def readMarked {α : Type} (read : Marker → Bytes → Except ReadError (α × Bytes)) (bs : Bytes) :
    Except ReadError (α × Bytes) := do
  let (marker, rest) ← takeMarker bs
  read marker rest

theorem readMarked_tagged {α : Type} (read : Marker → Bytes → Except ReadError (α × Bytes))
    (tag : UInt8) (width : ℕ) (result : ℕ → α)
    (ht : ∀ bs, read (.ofByte tag) bs = (takeNat width bs).map fun (n, rest) => (result n, rest))
    {n : ℕ} (h : n < 256 ^ width) (rest : Bytes) :
    readMarked read (tagged tag width n ++ rest) = .ok (result n, rest) := by
  change read (.ofByte tag) (Bytes.ofNat width n ++ rest) = _
  rw [ht, takeNat_ofNat_append width h]
  rfl

theorem readMarked_singleton {α : Type} {read : Marker → Bytes → Except ReadError (α × Bytes)}
    {b : UInt8} {marker : Marker} {result : α} (hm : Marker.ofByte b = marker)
    (hread : ∀ bs, read marker bs = .ok (result, bs)) (rest : Bytes) :
    readMarked read ([b] ++ rest) = .ok (result, rest) := by
  change read (.ofByte b) rest = _
  rw [hm, hread]

theorem readHead_tagged (tag : UInt8) (width : ℕ) (body : ℕ → Body)
    (ht : ∀ bs, readBody (.ofByte tag) bs = readExtent width body bs) {n : ℕ} (h : n < 256 ^ width)
    (rest : Bytes) : readHead (tagged tag width n ++ rest) = .ok (body n, rest) :=
  readMarked_tagged readBody tag width body ht h rest

theorem readHead_singleton {b : UInt8} {marker : Marker} {body : Body}
    (hm : Marker.ofByte b = marker) (hb : ∀ bs, readBody marker bs = .ok (body, bs)) (rest : Bytes) :
    readHead ([b] ++ rest) = .ok (body, rest) :=
  readMarked_singleton hm hb rest

theorem readHead_strHeader {size : ℕ} (h : size < UInt32.size) (rest : Bytes) :
    readHead (strHeader size ++ rest) = .ok (⟨size, 0⟩, rest) := by
  unfold strHeader
  split_ifs with h₁ h₂ h₃
  · exact readHead_singleton (Marker.ofByte_fixStr h₁) (fun _ => rfl) rest
  · exact readHead_tagged 0xd9 1 (⟨·, 0⟩) (fun _ => rfl) h₂ rest
  · exact readHead_tagged 0xda 2 (⟨·, 0⟩) (fun _ => rfl) h₃ rest
  · exact readHead_tagged 0xdb 4 (⟨·, 0⟩) (fun _ => rfl) h rest

theorem readHead_binHeader {size : ℕ} (h : size < UInt32.size) (rest : Bytes) :
    readHead (binHeader size ++ rest) = .ok (⟨size, 0⟩, rest) := by
  unfold binHeader
  split_ifs with h₁ h₂
  · exact readHead_tagged 0xc4 1 (⟨·, 0⟩) (fun _ => rfl) h₁ rest
  · exact readHead_tagged 0xc5 2 (⟨·, 0⟩) (fun _ => rfl) h₂ rest
  · exact readHead_tagged 0xc6 4 (⟨·, 0⟩) (fun _ => rfl) h rest

theorem readHead_arrayHeader {count : ℕ} (h : count < UInt32.size) (rest : Bytes) :
    readHead (arrayHeader count ++ rest) = .ok (⟨0, count⟩, rest) := by
  unfold arrayHeader
  split_ifs with h₁ h₂
  · exact readHead_singleton (Marker.ofByte_fixArray h₁) (fun _ => rfl) rest
  · exact readHead_tagged 0xdc 2 (⟨0, ·⟩) (fun _ => rfl) h₂ rest
  · exact readHead_tagged 0xdd 4 (⟨0, ·⟩) (fun _ => rfl) h rest

theorem readHead_mapHeader {count : ℕ} (h : count < UInt32.size) (rest : Bytes) :
    readHead (mapHeader count ++ rest) = .ok (⟨0, 2 * count⟩, rest) := by
  unfold mapHeader
  split_ifs with h₁ h₂
  · exact readHead_singleton (Marker.ofByte_fixMap h₁) (fun _ => rfl) rest
  · exact readHead_tagged 0xde 2 (⟨0, 2 * ·⟩) (fun _ => rfl) h₂ rest
  · exact readHead_tagged 0xdf 4 (⟨0, 2 * ·⟩) (fun _ => rfl) h rest

theorem openValue_uintBytes (n : ℕ) (rest : Bytes) :
    openValue (uintBytes n ++ rest) = .ok (0, rest) := by
  have hnumber (tag : UInt8) (width : ℕ)
      (ht : ∀ bs, readBody (.ofByte tag) bs = .ok (⟨width, 0⟩, bs)) :
      openValue (tagged tag width n ++ rest) = .ok (0, rest) := by
    have hhead : readHead (tagged tag width n ++ rest) =
        .ok (⟨width, 0⟩, Bytes.ofNat width n ++ rest) := ht _
    exact openValue_of_readHead hhead
      (Bytes.dropExact_append_of_length (Bytes.length_ofNat width n) rest)
  unfold uintBytes
  split_ifs with h₁
  · exact openValue_of_readHead
      (readHead_singleton (Marker.ofByte_fixPos h₁) (fun _ => rfl) rest) rfl
  · exact hnumber 0xcc 1 fun _ => rfl
  · exact hnumber 0xcd 2 fun _ => rfl
  · exact hnumber 0xce 4 fun _ => rfl
  · exact hnumber 0xcf 8 fun _ => rfl

theorem openValue_strBytes {text : String} (h : (Bytes.ofString text).length < UInt32.size)
    (rest : Bytes) : openValue (strBytes text ++ rest) = .ok (0, rest) := by
  rw [strBytes, List.append_assoc]
  exact openValue_of_readHead (readHead_strHeader h _) (Bytes.dropExact_append _ rest)

theorem openValue_binBytes {bytes : Bytes} (h : bytes.length < UInt32.size) (rest : Bytes) :
    openValue (binBytes bytes ++ rest) = .ok (0, rest) := by
  rw [binBytes, List.append_assoc]
  exact openValue_of_readHead (readHead_binHeader h _) (Bytes.dropExact_append _ rest)

theorem skipValues_succ {bs rest : Bytes} {children : ℕ} (h : openValue bs = .ok (children, rest))
    (owed : ℕ) : skipValues (owed + 1) bs = skipValues (children + owed) rest := by
  rw [skipValues]
  split
  · next e he => simp [h] at he
  · next c r hr =>
    obtain ⟨rfl, rfl⟩ := Prod.mk.inj (Except.ok.inj (h.symm.trans hr))
    rfl

@[simp] theorem skipValues_zero (bs : Bytes) : skipValues 0 bs = .ok bs := by
  rw [skipValues]

/-- Stretches of `k` values each are skipped one by one. -/
theorem skipValues_flatMap {α : Type} {write : α → Bytes} {as : List α} (k : ℕ)
    (h : ∀ a ∈ as, ∀ owed rest, skipValues (owed + k) (write a ++ rest) = skipValues owed rest)
    (owed : ℕ) (rest : Bytes) :
    skipValues (k * as.length + owed) (as.flatMap write ++ rest) = skipValues owed rest := by
  induction as with
  | nil => rw [List.length_nil, Nat.mul_zero, Nat.zero_add, List.flatMap_nil, List.nil_append]
  | cons a as ih =>
    have howed : k * (as.length + 1) + owed = k * as.length + owed + k := by
      rw [Nat.mul_succ]
      omega
    rw [List.flatMap_cons, List.append_assoc, List.length_cons, howed, h a List.mem_cons_self,
      ih fun other hm => h other (List.mem_cons_of_mem a hm)]

theorem encodeItems_eq_flatMap (items : List Value) :
    encodeItems items = items.flatMap Value.encode := by
  induction items with
  | nil => rw [encodeItems, List.flatMap_nil]
  | cons item items ih => rw [encodeItems, ih, List.flatMap_cons]

theorem encodeEntries_eq_flatMap (entries : List (String × Value)) :
    encodeEntries entries = entries.flatMap fun entry => strBytes entry.1 ++ entry.2.encode := by
  induction entries with
  | nil => rw [encodeEntries, List.flatMap_nil]
  | cons entry entries ih => rw [encodeEntries, ih, List.flatMap_cons]

theorem skipValues_encodeItems {items : List Value}
    (h : ∀ item ∈ items, ∀ owed rest,
      skipValues (owed + 1) (item.encode ++ rest) = skipValues owed rest) (owed : ℕ) (rest : Bytes) :
    skipValues (items.length + owed) (encodeItems items ++ rest) = skipValues owed rest := by
  have hskip := skipValues_flatMap 1 h owed rest
  rwa [Nat.one_mul, ← encodeItems_eq_flatMap] at hskip

theorem skipValues_encodeEntries {entries : List (String × Value)}
    (hk : ∀ entry ∈ entries, (Bytes.ofString entry.1).length < UInt32.size)
    (h : ∀ entry ∈ entries, ∀ owed rest,
      skipValues (owed + 1) (entry.2.encode ++ rest) = skipValues owed rest)
    (owed : ℕ) (rest : Bytes) :
    skipValues (2 * entries.length + owed) (encodeEntries entries ++ rest) =
      skipValues owed rest := by
  rw [encodeEntries_eq_flatMap]
  refine skipValues_flatMap 2 (fun entry he owed rest => ?_) owed rest
  rw [List.append_assoc, skipValues_succ (openValue_strBytes (hk entry he) _), Nat.zero_add,
    h entry he]

/-- A written value is one value to the reader. -/
theorem skipValues_encode {v : Value} (h : v.Fits) (owed : ℕ) (rest : Bytes) :
    skipValues (owed + 1) (v.encode ++ rest) = skipValues owed rest := by
  induction h generalizing owed rest with
  | uint n =>
    rw [Value.encode, skipValues_succ (openValue_uintBytes _ rest), Nat.zero_add]
  | str h =>
    rw [Value.encode, skipValues_succ (openValue_strBytes h rest), Nat.zero_add]
  | bin h =>
    rw [Value.encode, skipValues_succ (openValue_binBytes h rest), Nat.zero_add]
  | array h _ ih =>
    rw [Value.encode, List.append_assoc,
      skipValues_succ (openValue_of_readHead (readHead_arrayHeader h _) rfl),
      skipValues_encodeItems ih]
  | map h hk _ ih =>
    rw [Value.encode, List.append_assoc,
      skipValues_succ (openValue_of_readHead (readHead_mapHeader h _) rfl),
      skipValues_encodeEntries hk ih]

theorem skipValue_encode {v : Value} (h : v.Fits) (rest : Bytes) :
    skipValue (v.encode ++ rest) = .ok rest := by
  rw [skipValue, skipValues_encode h, skipValues_zero]

theorem readMapHeader_cons {b : UInt8} {width : ℕ} (hm : Marker.ofByte b = .map width)
    (bs : Bytes) : readMapHeader (b :: bs) = takeNat width bs := by
  rw [readMapHeader, takeMarker, hm]
  rfl

theorem readMapHeader_mapHeader {count : ℕ} (h : count < UInt32.size) (rest : Bytes) :
    readMapHeader (mapHeader count ++ rest) = .ok (count, rest) := by
  unfold mapHeader
  split_ifs with h₁ h₂
  · rw [List.singleton_append, readMapHeader, takeMarker, Marker.ofByte_fixMap h₁]
    rfl
  · rw [tagged, List.cons_append, readMapHeader_cons (show Marker.ofByte 0xde = .map 2 by decide),
      takeNat_ofNat_append 2 h₂]
  · rw [tagged, List.cons_append, readMapHeader_cons (show Marker.ofByte 0xdf = .map 4 by decide),
      takeNat_ofNat_append 4 h]

theorem readKey_cons {b : UInt8} {width : ℕ} (hm : Marker.ofByte b = .str width) (bs : Bytes) :
    readKey (b :: bs) = takeNat width bs >>= fun r => takeBytes r.1 r.2 := by
  rw [readKey, takeMarker, hm]
  rfl

theorem readKey_strBytes {text : String} (h : (Bytes.ofString text).length < UInt32.size)
    (rest : Bytes) : readKey (strBytes text ++ rest) = .ok (Bytes.ofString text, rest) := by
  have hsized (tag : UInt8) (width : ℕ) (hm : Marker.ofByte tag = .str width)
      (hw : (Bytes.ofString text).length < 256 ^ width) :
      readKey (tagged tag width (Bytes.ofString text).length ++ (Bytes.ofString text ++ rest)) =
        .ok (Bytes.ofString text, rest) := by
    rw [tagged, List.cons_append, readKey_cons hm, takeNat_ofNat_append width hw]
    exact takeBytes_append _ rest
  rw [strBytes, List.append_assoc]
  unfold strHeader
  split_ifs with h₁ h₂ h₃
  · rw [List.singleton_append, readKey, takeMarker, Marker.ofByte_fixStr h₁]
    exact takeBytes_append _ rest
  · exact hsized 0xd9 1 (by decide) h₂
  · exact hsized 0xda 2 (by decide) h₃
  · exact hsized 0xdb 4 (by decide) h

end FalconAccount.Msgpack
