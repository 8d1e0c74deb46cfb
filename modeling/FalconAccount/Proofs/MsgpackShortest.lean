import FalconAccount.Proofs.MsgpackValues

/-!
# Values are written canonically

A number, a length or a count can stand in headers of several widths. What is written takes the shortest
of them at every depth, and every map has its entries in the bytewise order of their keys if they are
listed so.
-/

namespace FalconAccount.Msgpack

/-- The bytes are a header that says this, in any of the forms there are for it: in the marker alone, or
with a number after the marker. A number that is not negative may also be written with a sign. -/
inductive Header.IsWritten : Header → Bytes → Prop
  | fixPos {b : UInt8} {n : ℕ} (h : Marker.ofByte b = .fixPos n) : IsWritten (.uint n) [b]
  | uint {b : UInt8} {digits : Bytes} (h : Marker.ofByte b = .uint digits.length) :
    IsWritten (.uint (Bytes.toNat digits)) (b :: digits)
  | int {b : UInt8} {digits : Bytes} (h : Marker.ofByte b = .int digits.length)
    (hsign : 2 * Bytes.toNat digits < 256 ^ digits.length) :
    IsWritten (.uint (Bytes.toNat digits)) (b :: digits)
  | fixStr {b : UInt8} {size : ℕ} (h : Marker.ofByte b = .fixStr size) : IsWritten (.str size) [b]
  | str {b : UInt8} {digits : Bytes} (h : Marker.ofByte b = .str digits.length) :
    IsWritten (.str (Bytes.toNat digits)) (b :: digits)
  | bin {b : UInt8} {digits : Bytes} (h : Marker.ofByte b = .bin digits.length) :
    IsWritten (.bin (Bytes.toNat digits)) (b :: digits)
  | fixArray {b : UInt8} {count : ℕ} (h : Marker.ofByte b = .fixArray count) :
    IsWritten (.array count) [b]
  | array {b : UInt8} {digits : Bytes} (h : Marker.ofByte b = .array digits.length) :
    IsWritten (.array (Bytes.toNat digits)) (b :: digits)
  | fixMap {b : UInt8} {count : ℕ} (h : Marker.ofByte b = .fixMap count) : IsWritten (.map count) [b]
  | map {b : UInt8} {digits : Bytes} (h : Marker.ofByte b = .map digits.length) :
    IsWritten (.map (Bytes.toNat digits)) (b :: digits)

/-- The bytes are a header that says this, and none that says it is shorter. -/
structure Header.IsShortest (header : Header) (bytes : Bytes) : Prop where
  written : header.IsWritten bytes
  least : ∀ other, header.IsWritten other → bytes.length ≤ other.length

/-- The first key comes before the second one, byte by byte. -/
def KeyBefore (first second : String × Value) : Prop :=
  Bytes.ofString first.1 < Bytes.ofString second.1

mutual

/-- The bytes write the value with the shortest header at every depth, and with the entries of every map
in the order of their keys. -/
inductive IsCanonical : Value → Bytes → Prop
  | uint {n : UInt64} {header : Bytes} (h : (Header.uint n.toNat).IsShortest header) :
    IsCanonical (.uint n) header
  | str {text : String} {header : Bytes}
    (h : (Header.str (Bytes.ofString text).length).IsShortest header) :
    IsCanonical (.str text) (header ++ Bytes.ofString text)
  | bin {bytes header : Bytes} (h : (Header.bin bytes.length).IsShortest header) :
    IsCanonical (.bin bytes) (header ++ bytes)
  | array {items : List Value} {header body : Bytes}
    (h : (Header.array items.length).IsShortest header) (hs : AreCanonicalItems items body) :
    IsCanonical (.array items) (header ++ body)
  | map {entries : List (String × Value)} {header body : Bytes}
    (h : (Header.map entries.length).IsShortest header) (horder : entries.Pairwise KeyBefore)
    (hs : AreCanonicalEntries entries body) : IsCanonical (.map entries) (header ++ body)

inductive AreCanonicalItems : List Value → Bytes → Prop
  | nil : AreCanonicalItems [] []
  | cons {item : Value} {items : List Value} {first rest : Bytes} (h : IsCanonical item first)
    (hs : AreCanonicalItems items rest) : AreCanonicalItems (item :: items) (first ++ rest)

inductive AreCanonicalEntries : List (String × Value) → Bytes → Prop
  | nil : AreCanonicalEntries [] []
  | cons {key : String} {value : Value} {entries : List (String × Value)} {name first rest : Bytes}
    (hkey : IsCanonical (.str key) name) (h : IsCanonical value first)
    (hs : AreCanonicalEntries entries rest) :
    AreCanonicalEntries ((key, value) :: entries) (name ++ first ++ rest)

end

/-- At every depth, the entries of every map are listed in the order of their keys. -/
inductive Value.IsOrdered : Value → Prop
  | uint (n : UInt64) : IsOrdered (.uint n)
  | str (text : String) : IsOrdered (.str text)
  | bin (bytes : Bytes) : IsOrdered (.bin bytes)
  | array {items : List Value} (hs : ∀ item ∈ items, IsOrdered item) : IsOrdered (.array items)
  | map {entries : List (String × Value)} (horder : entries.Pairwise KeyBefore)
    (hs : ∀ entry ∈ entries, IsOrdered entry.2) : IsOrdered (.map entries)

/-- The numbers in a marker and the widths that it names are among these. -/
def Marker.isBounded : Marker → Bool
  | .fixPos n => n < 128
  | .fixStr size => size < 32
  | .fixArray count => count < 16
  | .fixMap count => count < 16
  | .uint width => [1, 2, 4, 8].contains width
  | .int width => [1, 2, 4, 8].contains width
  | .str width => [1, 2, 4].contains width
  | .bin width => [1, 2, 4].contains width
  | .array width => [2, 4].contains width
  | .map width => [2, 4].contains width
  | _ => true

theorem Marker.isBounded_ofByte (b : UInt8) : (ofByte b).isBounded = true := by
  have hall : ∀ n < 256, (ofByte (UInt8.ofNat n)).isBounded = true := by decide +kernel
  have hb := hall b.toNat b.toNat_lt
  rwa [UInt8.ofNat_toNat] at hb

theorem Marker.isBounded_of_ofByte {b : UInt8} {marker : Marker} (h : ofByte b = marker) :
    marker.isBounded = true := by
  rw [← h]
  exact isBounded_ofByte b

theorem Header.isWritten_tagged {header : ℕ → Header} {marker : ℕ → Marker}
    (hform : ∀ {b : UInt8} {digits : Bytes}, Marker.ofByte b = marker digits.length →
      (header (Bytes.toNat digits)).IsWritten (b :: digits))
    {tag : UInt8} {width n : ℕ} (ht : Marker.ofByte tag = marker width) (hn : n < 256 ^ width) :
    (header n).IsWritten (tagged tag width n) := by
  have hwritten := @hform tag (Bytes.ofNat width n) (by rw [Bytes.length_ofNat, ht])
  rwa [Bytes.toNat_ofNat hn] at hwritten

section Lengths

variable {n width : ℕ}

theorem length_tagged_le (tag : UInt8) (n : ℕ) {least : ℕ} (h : least ≤ width) :
    (tagged tag least n).length ≤ width + 1 := by
  rw [tagged, List.length_cons, Bytes.length_ofNat]
  exact Nat.succ_le_succ h

theorem width_lt {smaller : ℕ} (hn : ¬ n < 256 ^ smaller) (h : n < 256 ^ width) : smaller < width :=
  (Nat.pow_lt_pow_iff_right (by decide)).mp ((not_lt.mp hn).trans_lt h)

theorem length_uintBytes_of_lt (h : n < 128) : (uintBytes n).length = 1 := by
  rw [uintBytes, if_pos h, List.length_singleton]

theorem length_uintBytes_le (hw : (Marker.uint width).isBounded = true) (h : n < 256 ^ width) :
    (uintBytes n).length ≤ width + 1 := by
  have hwidth : width = 1 ∨ width = 2 ∨ width = 4 ∨ width = 8 := by
    simpa [Marker.isBounded] using hw
  unfold uintBytes
  split_ifs with h₁ h₂ h₃ h₄
  · exact Nat.le_add_left 1 width
  · exact length_tagged_le _ _ (by omega)
  · have hlt : 1 < width := width_lt h₂ h
    exact length_tagged_le _ _ (by omega)
  · have hlt : 2 < width := width_lt h₃ h
    exact length_tagged_le _ _ (by omega)
  · have hlt : 4 < width := width_lt h₄ h
    exact length_tagged_le _ _ (by omega)

theorem length_strHeader_of_lt (h : n < 32) : (strHeader n).length = 1 := by
  rw [strHeader, if_pos h, List.length_singleton]

theorem length_strHeader_le (hw : (Marker.str width).isBounded = true) (h : n < 256 ^ width) :
    (strHeader n).length ≤ width + 1 := by
  have hwidth : width = 1 ∨ width = 2 ∨ width = 4 := by simpa [Marker.isBounded] using hw
  unfold strHeader
  split_ifs with h₁ h₂ h₃
  · exact Nat.le_add_left 1 width
  · exact length_tagged_le _ _ (by omega)
  · have hlt : 1 < width := width_lt h₂ h
    exact length_tagged_le _ _ (by omega)
  · have hlt : 2 < width := width_lt h₃ h
    exact length_tagged_le _ _ (by omega)

theorem length_binHeader_le (hw : (Marker.bin width).isBounded = true) (h : n < 256 ^ width) :
    (binHeader n).length ≤ width + 1 := by
  have hwidth : width = 1 ∨ width = 2 ∨ width = 4 := by simpa [Marker.isBounded] using hw
  unfold binHeader
  split_ifs with h₁ h₂
  · exact length_tagged_le _ _ (by omega)
  · have hlt : 1 < width := width_lt h₁ h
    exact length_tagged_le _ _ (by omega)
  · have hlt : 2 < width := width_lt h₂ h
    exact length_tagged_le _ _ (by omega)

theorem length_arrayHeader_of_lt (h : n < 16) : (arrayHeader n).length = 1 := by
  rw [arrayHeader, if_pos h, List.length_singleton]

theorem length_arrayHeader_le (hw : (Marker.array width).isBounded = true) (h : n < 256 ^ width) :
    (arrayHeader n).length ≤ width + 1 := by
  have hwidth : width = 2 ∨ width = 4 := by simpa [Marker.isBounded] using hw
  unfold arrayHeader
  split_ifs with h₁ h₂
  · exact Nat.le_add_left 1 width
  · exact length_tagged_le _ _ (by omega)
  · have hlt : 2 < width := width_lt h₂ h
    exact length_tagged_le _ _ (by omega)

theorem length_mapHeader_of_lt (h : n < 16) : (mapHeader n).length = 1 := by
  rw [mapHeader, if_pos h, List.length_singleton]

theorem length_mapHeader_le (hw : (Marker.map width).isBounded = true) (h : n < 256 ^ width) :
    (mapHeader n).length ≤ width + 1 := by
  have hwidth : width = 2 ∨ width = 4 := by simpa [Marker.isBounded] using hw
  unfold mapHeader
  split_ifs with h₁ h₂
  · exact Nat.le_add_left 1 width
  · exact length_tagged_le _ _ (by omega)
  · have hlt : 2 < width := width_lt h₂ h
    exact length_tagged_le _ _ (by omega)

end Lengths

theorem isShortest_uintBytes {n : ℕ} (h : n < UInt64.size) :
    (Header.uint n).IsShortest (uintBytes n) where
  written := by
    unfold uintBytes
    split_ifs with h₁ h₂ h₃ h₄
    · exact .fixPos (Marker.ofByte_fixPos h₁)
    · exact Header.isWritten_tagged .uint (by decide) h₂
    · exact Header.isWritten_tagged .uint (by decide) h₃
    · exact Header.isWritten_tagged .uint (by decide) h₄
    · exact Header.isWritten_tagged .uint (by decide) h
  least other hother := by
    cases hother with
    | fixPos hm =>
      exact (length_uintBytes_of_lt (of_decide_eq_true (Marker.isBounded_of_ofByte hm))).le
    | uint hm =>
      exact length_uintBytes_le (Marker.isBounded_of_ofByte hm) (Bytes.toNat_lt _)
    | int hm _ =>
      -- The signed forms have the widths of the unsigned ones, so they are no shorter.
      have hw := Marker.isBounded_of_ofByte hm
      exact length_uintBytes_le hw (Bytes.toNat_lt _)

theorem isShortest_strHeader {size : ℕ} (h : size < UInt32.size) :
    (Header.str size).IsShortest (strHeader size) where
  written := by
    unfold strHeader
    split_ifs with h₁ h₂ h₃
    · exact .fixStr (Marker.ofByte_fixStr h₁)
    · exact Header.isWritten_tagged .str (by decide) h₂
    · exact Header.isWritten_tagged .str (by decide) h₃
    · exact Header.isWritten_tagged .str (by decide) h
  least other hother := by
    cases hother with
    | fixStr hm =>
      exact (length_strHeader_of_lt (of_decide_eq_true (Marker.isBounded_of_ofByte hm))).le
    | str hm =>
      exact length_strHeader_le (Marker.isBounded_of_ofByte hm) (Bytes.toNat_lt _)

theorem isShortest_binHeader {size : ℕ} (h : size < UInt32.size) :
    (Header.bin size).IsShortest (binHeader size) where
  written := by
    unfold binHeader
    split_ifs with h₁ h₂
    · exact Header.isWritten_tagged .bin (by decide) h₁
    · exact Header.isWritten_tagged .bin (by decide) h₂
    · exact Header.isWritten_tagged .bin (by decide) h
  least other hother := by
    cases hother with
    | bin hm =>
      exact length_binHeader_le (Marker.isBounded_of_ofByte hm) (Bytes.toNat_lt _)

theorem isShortest_arrayHeader {count : ℕ} (h : count < UInt32.size) :
    (Header.array count).IsShortest (arrayHeader count) where
  written := by
    unfold arrayHeader
    split_ifs with h₁ h₂
    · exact .fixArray (Marker.ofByte_fixArray h₁)
    · exact Header.isWritten_tagged .array (by decide) h₂
    · exact Header.isWritten_tagged .array (by decide) h
  least other hother := by
    cases hother with
    | fixArray hm =>
      exact (length_arrayHeader_of_lt (of_decide_eq_true (Marker.isBounded_of_ofByte hm))).le
    | array hm =>
      exact length_arrayHeader_le (Marker.isBounded_of_ofByte hm) (Bytes.toNat_lt _)

theorem isShortest_mapHeader {count : ℕ} (h : count < UInt32.size) :
    (Header.map count).IsShortest (mapHeader count) where
  written := by
    unfold mapHeader
    split_ifs with h₁ h₂
    · exact .fixMap (Marker.ofByte_fixMap h₁)
    · exact Header.isWritten_tagged .map (by decide) h₂
    · exact Header.isWritten_tagged .map (by decide) h
  least other hother := by
    cases hother with
    | fixMap hm =>
      exact (length_mapHeader_of_lt (of_decide_eq_true (Marker.isBounded_of_ofByte hm))).le
    | map hm =>
      exact length_mapHeader_le (Marker.isBounded_of_ofByte hm) (Bytes.toNat_lt _)

theorem isCanonical_strBytes {text : String} (h : (Bytes.ofString text).length < UInt32.size) :
    IsCanonical (.str text) (strBytes text) :=
  .str (isShortest_strHeader h)

theorem areCanonicalItems_encodeItems {items : List Value}
    (h : ∀ item ∈ items, IsCanonical item item.encode) :
    AreCanonicalItems items (encodeItems items) := by
  induction items with
  | nil =>
    rw [encodeItems]
    exact .nil
  | cons item items ih =>
    rw [encodeItems]
    exact .cons (h item List.mem_cons_self) (ih fun other hm => h other (List.mem_cons_of_mem item hm))

theorem areCanonicalEntries_encodeEntries {entries : List (String × Value)}
    (hk : ∀ entry ∈ entries, (Bytes.ofString entry.1).length < UInt32.size)
    (h : ∀ entry ∈ entries, IsCanonical entry.2 entry.2.encode) :
    AreCanonicalEntries entries (encodeEntries entries) := by
  induction entries with
  | nil =>
    rw [encodeEntries]
    exact .nil
  | cons entry entries ih =>
    obtain ⟨key, value⟩ := entry
    have hkey : IsCanonical (.str key) (strBytes key) :=
      isCanonical_strBytes (hk (key, value) List.mem_cons_self)
    have hvalue : IsCanonical value value.encode := h (key, value) List.mem_cons_self
    have hentries := ih (fun other hm => hk other (List.mem_cons_of_mem _ hm))
      fun other hm => h other (List.mem_cons_of_mem _ hm)
    rw [encodeEntries]
    exact .cons hkey hvalue hentries

/-- A value whose maps are listed in the order of their keys is written canonically. -/
theorem Value.Fits.isCanonical_encode {v : Value} (hf : v.Fits) (ho : v.IsOrdered) :
    IsCanonical v v.encode := by
  induction hf with
  | uint n =>
    rw [encode]
    exact .uint (isShortest_uintBytes n.toNat_lt)
  | str h =>
    rw [encode]
    exact isCanonical_strBytes h
  | bin h =>
    rw [encode]
    exact .bin (isShortest_binHeader h)
  | array h _ ih =>
    cases ho with
    | array ho =>
      rw [encode]
      exact .array (isShortest_arrayHeader h)
        (areCanonicalItems_encodeItems fun item hm => ih item hm (ho item hm))
  | map h hk _ ih =>
    cases ho with
    | map horder ho =>
      rw [encode]
      exact .map (isShortest_mapHeader h) horder
        (areCanonicalEntries_encodeEntries hk fun entry hm => ih entry hm (ho entry hm))

end FalconAccount.Msgpack
