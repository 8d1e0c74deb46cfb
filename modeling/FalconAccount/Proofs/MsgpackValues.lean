import FalconAccount.Proofs.MsgpackReading

/-!
# Written values are read back

A reader of whole values, of the kinds that are written. What was written before other bytes is read
from them, and exactly those bytes are left. So no value is written like another one, nor like another
one and some bytes of what follows it.
-/

namespace FalconAccount.Msgpack

/-- What the first bytes of a value say: a number, or how many bytes or values follow. -/
inductive Header where
  | uint (n : ℕ)
  | str (size : ℕ)
  | bin (size : ℕ)
  | array (count : ℕ)
  | map (count : ℕ)

def readSized (width : ℕ) (header : ℕ → Header) (bs : Bytes) : Except ReadError (Header × Bytes) :=
  (takeNat width bs).map fun (n, rest) => (header n, rest)

def Marker.readHeader (marker : Marker) (bs : Bytes) : Except ReadError (Header × Bytes) :=
  match marker with
  | .fixPos n => .ok (.uint n, bs)
  | .uint width => readSized width .uint bs
  | .fixStr size => .ok (.str size, bs)
  | .str width => readSized width .str bs
  | .bin width => readSized width .bin bs
  | .fixArray count => .ok (.array count, bs)
  | .array width => readSized width .array bs
  | .fixMap count => .ok (.map count, bs)
  | .map width => readSized width .map bs
  | other => .error (.unsupported other)

def readHeader : Bytes → Except ReadError (Header × Bytes) := readMarked Marker.readHeader

def textOf? (bytes : Bytes) : Option String := String.fromUTF8? bytes.toByteArray

/-- Reads `count` things off the front, one after another. -/
def readMany {α : Type} (read : Bytes → Option (α × Bytes)) : (count : ℕ) → Bytes → Option (List α × Bytes)
  | 0, bs => some ([], bs)
  | count + 1, bs => do
    let (first, rest) ← read bs
    let (others, rest) ← readMany read count rest
    some (first :: others, rest)

theorem readMany_flatMap {α : Type} {read : Bytes → Option (α × Bytes)} {write : α → Bytes}
    {as : List α} (h : ∀ a ∈ as, ∀ rest, read (write a ++ rest) = some (a, rest)) (rest : Bytes) :
    readMany read as.length (as.flatMap write ++ rest) = some (as, rest) := by
  induction as with
  | nil => rfl
  | cons a as ih =>
    have hothers := ih fun other hm => h other (List.mem_cons_of_mem a hm)
    rw [List.flatMap_cons, List.append_assoc, List.length_cons, readMany, h a List.mem_cons_self]
    change (readMany read as.length (as.flatMap write ++ rest) >>= fun r => _) = _
    rw [hothers]
    rfl

def readEntry (read : Bytes → Option (Value × Bytes)) (bs : Bytes) :
    Option ((String × Value) × Bytes) := do
  let (bytes, rest) ← (readKey bs).toOption
  let key ← textOf? bytes
  let (value, rest) ← read rest
  some ((key, value), rest)

/-- The value at the front, if it is nested less than `depth` deep. -/
def readNested : (depth : ℕ) → Bytes → Option (Value × Bytes)
  | 0, _ => none
  | depth + 1, bs => do
    let (header, rest) ← (readHeader bs).toOption
    match header with
    | .uint n => some (.uint (UInt64.ofNat n), rest)
    | .str size => do
      let (bytes, rest) ← (takeBytes size rest).toOption
      let text ← textOf? bytes
      some (.str text, rest)
    | .bin size => do
      let (bytes, rest) ← (takeBytes size rest).toOption
      some (.bin bytes, rest)
    | .array count => do
      let (items, rest) ← readMany (readNested depth) count rest
      some (.array items, rest)
    | .map count => do
      let (entries, rest) ← readMany (readEntry (readNested depth)) count rest
      some (.map entries, rest)

/-- The value at the front. No value is nested deeper than it has bytes. -/
def readValue (bs : Bytes) : Option (Value × Bytes) := readNested (bs.length + 1) bs

theorem textOf?_ofString (text : String) : textOf? (Bytes.ofString text) = some text := by
  have hbytes : (Bytes.ofString text).toByteArray = text.toByteArray := String.utf8Encode_toList
  rw [textOf?, hbytes, String.fromUTF8?, dif_pos text.isValidUTF8]
  rfl

theorem readHeader_uintBytes {n : ℕ} (h : n < UInt64.size) (rest : Bytes) :
    readHeader (uintBytes n ++ rest) = .ok (.uint n, rest) := by
  unfold uintBytes
  split_ifs with h₁ h₂ h₃ h₄
  · exact readMarked_singleton (Marker.ofByte_fixPos h₁) (fun _ => rfl) rest
  · exact readMarked_tagged Marker.readHeader 0xcc 1 .uint (fun _ => rfl) h₂ rest
  · exact readMarked_tagged Marker.readHeader 0xcd 2 .uint (fun _ => rfl) h₃ rest
  · exact readMarked_tagged Marker.readHeader 0xce 4 .uint (fun _ => rfl) h₄ rest
  · exact readMarked_tagged Marker.readHeader 0xcf 8 .uint (fun _ => rfl) h rest

theorem readHeader_strHeader {size : ℕ} (h : size < UInt32.size) (rest : Bytes) :
    readHeader (strHeader size ++ rest) = .ok (.str size, rest) := by
  unfold strHeader
  split_ifs with h₁ h₂ h₃
  · exact readMarked_singleton (Marker.ofByte_fixStr h₁) (fun _ => rfl) rest
  · exact readMarked_tagged Marker.readHeader 0xd9 1 .str (fun _ => rfl) h₂ rest
  · exact readMarked_tagged Marker.readHeader 0xda 2 .str (fun _ => rfl) h₃ rest
  · exact readMarked_tagged Marker.readHeader 0xdb 4 .str (fun _ => rfl) h rest

theorem readHeader_binHeader {size : ℕ} (h : size < UInt32.size) (rest : Bytes) :
    readHeader (binHeader size ++ rest) = .ok (.bin size, rest) := by
  unfold binHeader
  split_ifs with h₁ h₂
  · exact readMarked_tagged Marker.readHeader 0xc4 1 .bin (fun _ => rfl) h₁ rest
  · exact readMarked_tagged Marker.readHeader 0xc5 2 .bin (fun _ => rfl) h₂ rest
  · exact readMarked_tagged Marker.readHeader 0xc6 4 .bin (fun _ => rfl) h rest

theorem readHeader_arrayHeader {count : ℕ} (h : count < UInt32.size) (rest : Bytes) :
    readHeader (arrayHeader count ++ rest) = .ok (.array count, rest) := by
  unfold arrayHeader
  split_ifs with h₁ h₂
  · exact readMarked_singleton (Marker.ofByte_fixArray h₁) (fun _ => rfl) rest
  · exact readMarked_tagged Marker.readHeader 0xdc 2 .array (fun _ => rfl) h₂ rest
  · exact readMarked_tagged Marker.readHeader 0xdd 4 .array (fun _ => rfl) h rest

theorem readHeader_mapHeader {count : ℕ} (h : count < UInt32.size) (rest : Bytes) :
    readHeader (mapHeader count ++ rest) = .ok (.map count, rest) := by
  unfold mapHeader
  split_ifs with h₁ h₂
  · exact readMarked_singleton (Marker.ofByte_fixMap h₁) (fun _ => rfl) rest
  · exact readMarked_tagged Marker.readHeader 0xde 2 .map (fun _ => rfl) h₂ rest
  · exact readMarked_tagged Marker.readHeader 0xdf 4 .map (fun _ => rfl) h rest

variable {read : Bytes → Option (Value × Bytes)}

theorem readMany_encodeItems {items : List Value}
    (h : ∀ item ∈ items, ∀ rest, read (item.encode ++ rest) = some (item, rest)) (rest : Bytes) :
    readMany read items.length (encodeItems items ++ rest) = some (items, rest) := by
  rw [encodeItems_eq_flatMap]
  exact readMany_flatMap h rest

theorem readMany_encodeEntries {entries : List (String × Value)}
    (hk : ∀ entry ∈ entries, (Bytes.ofString entry.1).length < UInt32.size)
    (h : ∀ entry ∈ entries, ∀ rest, read (entry.2.encode ++ rest) = some (entry.2, rest)) (rest : Bytes) :
    readMany (readEntry read) entries.length (encodeEntries entries ++ rest) = some (entries, rest) := by
  rw [encodeEntries_eq_flatMap]
  refine readMany_flatMap (fun entry he rest => ?_) rest
  rw [List.append_assoc, readEntry, readKey_strBytes (hk entry he)]
  change (textOf? (Bytes.ofString entry.1) >>= fun text => _) = _
  rw [textOf?_ofString]
  change (read (entry.2.encode ++ rest) >>= fun r => _) = _
  rw [h entry he]
  rfl

theorem length_encode_le_encodeItems {item : Value} {items : List Value} (h : item ∈ items) :
    item.encode.length ≤ (encodeItems items).length := by
  induction items with
  | nil => cases h
  | cons first items ih =>
    rw [encodeItems, List.length_append]
    rcases List.mem_cons.mp h with rfl | h
    · omega
    · have := ih h
      omega

theorem length_encode_le_encodeEntries {entry : String × Value} {entries : List (String × Value)}
    (h : entry ∈ entries) : entry.2.encode.length ≤ (encodeEntries entries).length := by
  induction entries with
  | nil => cases h
  | cons first entries ih =>
    rw [encodeEntries, List.length_append, List.length_append]
    rcases List.mem_cons.mp h with rfl | h
    · omega
    · have := ih h
      omega

theorem length_pos_of_readHeader {bs rest : Bytes} {header : Header}
    (h : readHeader bs = .ok (header, rest)) : 0 < bs.length := by
  cases bs with
  | nil => cases h
  | cons b bs => exact Nat.succ_pos _

/-- A written value is read to its end if the reader may go deeper than the value has bytes. -/
theorem readNested_encode {v : Value} (h : v.Fits) {depth : ℕ} (hd : v.encode.length < depth)
    (rest : Bytes) : readNested depth (v.encode ++ rest) = some (v, rest) := by
  obtain ⟨depth, rfl⟩ := Nat.exists_eq_add_one.mpr (Nat.zero_lt_of_lt hd)
  induction h generalizing depth rest with
  | uint n =>
    rw [Value.encode, readNested, readHeader_uintBytes n.toNat_lt]
    simp [Except.toOption]
  | str h =>
    rw [Value.encode, strBytes, List.append_assoc, readNested, readHeader_strHeader h]
    simp [Except.toOption, takeBytes_append, textOf?_ofString]
  | bin h =>
    rw [Value.encode, binBytes, List.append_assoc, readNested, readHeader_binHeader h]
    simp [Except.toOption, takeBytes_append]
  | @array items h _ ih =>
    -- The header takes a byte, so the items are shorter than the array.
    have hheader := length_pos_of_readHeader (readHeader_arrayHeader h [])
    rw [List.append_nil] at hheader
    rw [Value.encode, List.length_append] at hd
    have hitem (item) (hm : item ∈ items) (rest : Bytes) :
        readNested depth (item.encode ++ rest) = some (item, rest) := by
      have hle := length_encode_le_encodeItems hm
      obtain ⟨deeper, rfl⟩ := Nat.exists_eq_add_one.mpr (show 0 < depth by omega)
      exact ih item hm rest deeper (by omega)
    rw [Value.encode, List.append_assoc, readNested, readHeader_arrayHeader h]
    simp [Except.toOption, readMany_encodeItems hitem]
  | @map entries h hk _ ih =>
    have hheader := length_pos_of_readHeader (readHeader_mapHeader h [])
    rw [List.append_nil] at hheader
    rw [Value.encode, List.length_append] at hd
    have hentry (entry) (hm : entry ∈ entries) (rest : Bytes) :
        readNested depth (entry.2.encode ++ rest) = some (entry.2, rest) := by
      have hle := length_encode_le_encodeEntries hm
      obtain ⟨deeper, rfl⟩ := Nat.exists_eq_add_one.mpr (show 0 < depth by omega)
      exact ih entry hm rest deeper (by omega)
    rw [Value.encode, List.append_assoc, readNested, readHeader_mapHeader h]
    simp [Except.toOption, readMany_encodeEntries hk hentry]

/-- A written value is read from the front of the bytes, whatever follows it. -/
theorem readValue_encode {v : Value} (h : v.Fits) (rest : Bytes) :
    readValue (v.encode ++ rest) = some (v, rest) := by
  refine readNested_encode h ?_ rest
  rw [List.length_append]
  omega

/-- Values written before other bytes are the same if all the bytes are, and so is what follows. -/
theorem encode_append_inj {v w : Value} (hv : v.Fits) (hw : w.Fits) {rest other : Bytes}
    (h : v.encode ++ rest = w.encode ++ other) : v = w ∧ rest = other := by
  have hread := readValue_encode hv rest
  rw [h, readValue_encode hw other] at hread
  obtain ⟨rfl, rfl⟩ := Prod.mk.inj (Option.some.inj hread)
  exact ⟨rfl, rfl⟩

end FalconAccount.Msgpack
