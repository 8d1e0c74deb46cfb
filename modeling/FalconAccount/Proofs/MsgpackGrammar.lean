import FalconAccount.Proofs.FallibleSteps
import FalconAccount.Proofs.MsgpackReading

/-!
# The grammar of msgpack

Which bytes are a value, said from the format alone: of any kind but the extensions, in headers of any
width, nested in any way. The reader accepts exactly these. A header, a key or a value at the front of
the bytes is read if and only if there is one, and what is left is what comes after it.
-/

namespace FalconAccount.Msgpack

/-- A header that says a number: in its one byte, as what is added to `base`, if that is below `limit`; or
after a tag, in as many bytes as the tag has. -/
inductive IsSized (base limit : ℕ) (tags : List (UInt8 × ℕ)) : Bytes → ℕ → Prop
  | short {n : ℕ} (h : n < limit) : IsSized base limit tags [UInt8.ofNat (base + n)] n
  | long {tag : UInt8} {digits : Bytes} (h : (tag, digits.length) ∈ tags) :
    IsSized base limit tags (tag :: digits) (Bytes.toNat digits)

def numberTags : List (UInt8 × ℕ) :=
  [(0xca, 4), (0xcb, 8), (0xcc, 1), (0xcd, 2), (0xce, 4), (0xcf, 8), (0xd0, 1), (0xd1, 2), (0xd2, 4),
    (0xd3, 8)]

def textTags : List (UInt8 × ℕ) := [(0xd9, 1), (0xda, 2), (0xdb, 4)]

def binaryTags : List (UInt8 × ℕ) := [(0xc4, 1), (0xc5, 2), (0xc6, 4)]

def arrayTags : List (UInt8 × ℕ) := [(0xdc, 2), (0xdd, 4)]

def mapTags : List (UInt8 × ℕ) := [(0xde, 2), (0xdf, 4)]

abbrev IsTextHeader : Bytes → ℕ → Prop := IsSized 0xa0 32 textTags

/-- A header of a byte string of so many bytes; none is of one byte. -/
abbrev IsBinaryHeader : Bytes → ℕ → Prop := IsSized 0 0 binaryTags

abbrev IsArrayHeader : Bytes → ℕ → Prop := IsSized 0x90 16 arrayTags

abbrev IsMapHeader : Bytes → ℕ → Prop := IsSized 0x80 16 mapTags

/-- A number, nothing, or a truth value. -/
inductive IsScalar : Bytes → Prop
  | positive {n : ℕ} (h : n < 128) : IsScalar [UInt8.ofNat n]
  | negative {n : ℕ} (h : n < 32) : IsScalar [UInt8.ofNat (0xe0 + n)]
  | constant {tag : UInt8} (h : tag ∈ [0xc0, 0xc2, 0xc3]) : IsScalar [tag]
  | number {tag : UInt8} {digits : Bytes} (h : (tag, digits.length) ∈ numberTags) :
    IsScalar (tag :: digits)

/-- The bytes are one value. -/
inductive IsValue : Bytes → Prop
  | scalar {bytes : Bytes} (h : IsScalar bytes) : IsValue bytes
  | text {header bytes : Bytes} (h : IsTextHeader header bytes.length) : IsValue (header ++ bytes)
  | binary {header bytes : Bytes} (h : IsBinaryHeader header bytes.length) : IsValue (header ++ bytes)
  | array {header : Bytes} {items : List Bytes} (h : IsArrayHeader header items.length)
    (hs : ∀ item ∈ items, IsValue item) : IsValue (header ++ items.flatten)
  | map {header : Bytes} {entries : List (Bytes × Bytes)} (h : IsMapHeader header entries.length)
    (hk : ∀ entry ∈ entries, IsValue entry.1) (hv : ∀ entry ∈ entries, IsValue entry.2) :
    IsValue (header ++ entries.flatMap fun entry => entry.1 ++ entry.2)

/-!
Every byte announces one kind of value; a table says which bytes announce which.
-/

def Marker.isAnnouncedBy (b : UInt8) : Marker → Bool
  | .fixPos n => n < 128 && b == UInt8.ofNat n
  | .fixNeg n => 0 < n && n ≤ 32 && b == UInt8.ofNat (0xe0 + (32 - n))
  | .fixMap n => n < 16 && b == UInt8.ofNat (0x80 + n)
  | .fixArray n => n < 16 && b == UInt8.ofNat (0x90 + n)
  | .fixStr n => n < 32 && b == UInt8.ofNat (0xa0 + n)
  | .null => b == 0xc0
  | .bool _ => [0xc2, 0xc3].contains b
  | .float width => numberTags.contains (b, width)
  | .uint width => numberTags.contains (b, width)
  | .int width => numberTags.contains (b, width)
  | .bin width => binaryTags.contains (b, width)
  | .str width => textTags.contains (b, width)
  | .array width => arrayTags.contains (b, width)
  | .map width => mapTags.contains (b, width)
  | _ => true

theorem Marker.ofByte_fixNeg {n : ℕ} (h : n < 32) :
    ofByte (UInt8.ofNat (0xe0 + n)) = .fixNeg (32 - n) := by
  revert n
  decide

theorem Marker.isAnnouncedBy_ofByte (b : UInt8) : (ofByte b).isAnnouncedBy b = true := by
  have hall : ∀ n < 256, (ofByte (UInt8.ofNat n)).isAnnouncedBy (UInt8.ofNat n) = true := by
    decide +kernel
  have hb := hall b.toNat b.toNat_lt
  rwa [UInt8.ofNat_toNat] at hb

theorem Marker.ofByte_eq_fixStr_iff {b : UInt8} {n : ℕ} :
    ofByte b = .fixStr n ↔ n < 32 ∧ b = UInt8.ofNat (0xa0 + n) := by
  constructor
  · intro h
    simpa [h, isAnnouncedBy] using isAnnouncedBy_ofByte b
  · rintro ⟨hn, rfl⟩
    exact ofByte_fixStr hn

theorem Marker.ofByte_eq_fixMap_iff {b : UInt8} {n : ℕ} :
    ofByte b = .fixMap n ↔ n < 16 ∧ b = UInt8.ofNat (0x80 + n) := by
  constructor
  · intro h
    simpa [h, isAnnouncedBy] using isAnnouncedBy_ofByte b
  · rintro ⟨hn, rfl⟩
    exact ofByte_fixMap hn

theorem Marker.ofByte_eq_str_iff {b : UInt8} {width : ℕ} :
    ofByte b = .str width ↔ (b, width) ∈ textTags := by
  constructor
  · intro h
    simpa [h, isAnnouncedBy] using isAnnouncedBy_ofByte b
  · intro h
    fin_cases h <;> rfl

theorem Marker.ofByte_eq_map_iff {b : UInt8} {width : ℕ} :
    ofByte b = .map width ↔ (b, width) ∈ mapTags := by
  constructor
  · intro h
    simpa [h, isAnnouncedBy] using isAnnouncedBy_ofByte b
  · intro h
    fin_cases h <;> rfl

section Headers

variable {bs rest : Bytes} {n : ℕ}

theorem takeBytes_eq_ok_iff {taken : Bytes} :
    takeBytes n bs = .ok (taken, rest) ↔ taken.length = n ∧ bs = taken ++ rest := by
  constructor
  · intro h
    unfold takeBytes at h
    cases hd : Bytes.dropExact n bs with
    | none =>
      rw [hd] at h
      cases h
    | some after =>
      rw [hd] at h
      obtain ⟨rfl, rfl⟩ := Prod.mk.inj (Except.ok.inj h)
      obtain ⟨hsplit, hlength⟩ := Bytes.dropExact_eq_some hd
      exact ⟨by rw [List.length_take]; omega, hsplit⟩
  · rintro ⟨rfl, rfl⟩
    exact takeBytes_append taken rest

theorem takeNat_eq_ok_iff {width : ℕ} :
    takeNat width bs = .ok (n, rest) ↔
      ∃ digits : Bytes, digits.length = width ∧ Bytes.toNat digits = n ∧ bs = digits ++ rest := by
  rw [takeNat, map_eq_ok_iff]
  constructor
  · rintro ⟨⟨digits, after⟩, htake, heq⟩
    obtain ⟨rfl, rfl⟩ := Prod.mk.inj heq
    obtain ⟨hlength, hsplit⟩ := takeBytes_eq_ok_iff.mp htake
    exact ⟨digits, hlength, rfl, hsplit⟩
  · rintro ⟨digits, hlength, rfl, rfl⟩
    exact ⟨(digits, rest), takeBytes_eq_ok_iff.mpr ⟨hlength, rfl⟩, rfl⟩

theorem readMarked_eq_ok_iff {α : Type} {read : Marker → Bytes → Except ReadError (α × Bytes)}
    {result : α} :
    readMarked read bs = .ok (result, rest) ↔
      ∃ b after, bs = b :: after ∧ read (.ofByte b) after = .ok (result, rest) := by
  cases bs with
  | nil => simp [readMarked, takeMarker, bind, Except.bind]
  | cons b after =>
    change read (.ofByte b) after = _ ↔ _
    simp

/-- A reader that takes a number from the marker or from the bytes after it, and that refuses every
other marker, reads the headers of either form and nothing else. -/
theorem readMarked_eq_ok_iff_isSized {read : Marker → Bytes → Except ReadError (ℕ × Bytes)}
    (short long : ℕ → Marker) {base limit : ℕ} {tags : List (UInt8 × ℕ)}
    (hread : ∀ marker bs, read marker bs = .ok (n, rest) ↔
      marker = short n ∧ bs = rest ∨ ∃ width, marker = long width ∧ takeNat width bs = .ok (n, rest))
    (hshort : ∀ b, .ofByte b = short n ↔ n < limit ∧ b = UInt8.ofNat (base + n))
    (hlong : ∀ b width, .ofByte b = long width ↔ (b, width) ∈ tags) :
    readMarked read bs = .ok (n, rest) ↔
      ∃ header, IsSized base limit tags header n ∧ bs = header ++ rest := by
  simp only [readMarked_eq_ok_iff, hread, hshort, hlong]
  constructor
  · rintro ⟨b, after, rfl, ⟨⟨hn, rfl⟩, rfl⟩ | ⟨width, htag, htake⟩⟩
    · exact ⟨[UInt8.ofNat (base + n)], .short hn, rfl⟩
    · obtain ⟨digits, rfl, rfl, rfl⟩ := takeNat_eq_ok_iff.mp htake
      exact ⟨b :: digits, .long htag, rfl⟩
  · rintro ⟨header, h, rfl⟩
    cases h with
    | short hn => exact ⟨_, rest, rfl, .inl ⟨⟨hn, rfl⟩, rfl⟩⟩
    | @long tag digits htag =>
      exact ⟨tag, digits ++ rest, rfl,
        .inr ⟨digits.length, htag, takeNat_eq_ok_iff.mpr ⟨digits, rfl, rfl, rfl⟩⟩⟩

def Marker.readEntryCount (marker : Marker) (bs : Bytes) : Except ReadError (ℕ × Bytes) :=
  match marker with
  | .fixMap n => .ok (n, bs)
  | .map width => takeNat width bs
  | other => .error (.expectedMap other)

theorem readMapHeader_eq : readMapHeader = readMarked Marker.readEntryCount := rfl

theorem readMapHeader_eq_ok_iff :
    readMapHeader bs = .ok (n, rest) ↔ ∃ header, IsMapHeader header n ∧ bs = header ++ rest := by
  rw [readMapHeader_eq]
  refine readMarked_eq_ok_iff_isSized .fixMap .map (fun marker bs => ?_)
    (fun b => Marker.ofByte_eq_fixMap_iff) fun b width => Marker.ofByte_eq_map_iff
  cases marker <;> simp [Marker.readEntryCount, eq_comm]

def Marker.readKeySize (marker : Marker) (bs : Bytes) : Except ReadError (ℕ × Bytes) :=
  match marker with
  | .fixStr n => .ok (n, bs)
  | .str width => takeNat width bs
  | other => .error (.expectedKey other)

theorem readKey_eq (bs : Bytes) :
    readKey bs = readMarked Marker.readKeySize bs >>= fun r => takeBytes r.1 r.2 := by
  cases bs with
  | nil => rfl
  | cons b bs =>
    rw [readKey, readMarked, takeMarker]
    simp only [bind, Except.bind]
    cases Marker.ofByte b <;> rfl

theorem readKeySize_eq_ok_iff :
    readMarked Marker.readKeySize bs = .ok (n, rest) ↔
      ∃ header, IsTextHeader header n ∧ bs = header ++ rest := by
  refine readMarked_eq_ok_iff_isSized .fixStr .str (fun marker bs => ?_)
    (fun b => Marker.ofByte_eq_fixStr_iff) fun b width => Marker.ofByte_eq_str_iff
  cases marker <;> simp [Marker.readKeySize, eq_comm]

theorem readKey_eq_ok_iff {key : Bytes} :
    readKey bs = .ok (key, rest) ↔
      ∃ header, IsTextHeader header key.length ∧ bs = header ++ (key ++ rest) := by
  rw [readKey_eq, bind_eq_ok_iff]
  constructor
  · rintro ⟨⟨size, after⟩, hheader, hkey⟩
    obtain ⟨header, h, rfl⟩ := readKeySize_eq_ok_iff.mp hheader
    obtain ⟨rfl, rfl⟩ := takeBytes_eq_ok_iff.mp hkey
    exact ⟨header, h, rfl⟩
  · rintro ⟨header, h, rfl⟩
    exact ⟨(key.length, key ++ rest), readKeySize_eq_ok_iff.mpr ⟨header, h, rfl⟩,
      takeBytes_eq_ok_iff.mpr ⟨rfl, rfl⟩⟩

end Headers

/-- The part of a value before its members, and how many those are. A map has its keys and values as
members, in turn. -/
inductive IsHead : Bytes → ℕ → Prop
  | scalar {bytes : Bytes} (h : IsScalar bytes) : IsHead bytes 0
  | text {header bytes : Bytes} (h : IsTextHeader header bytes.length) : IsHead (header ++ bytes) 0
  | binary {header bytes : Bytes} (h : IsBinaryHeader header bytes.length) : IsHead (header ++ bytes) 0
  | array {header : Bytes} {count : ℕ} (h : IsArrayHeader header count) : IsHead header count
  | map {header : Bytes} {count : ℕ} (h : IsMapHeader header count) : IsHead header (2 * count)

section Heads

variable {bs rest : Bytes} {n : ℕ}

theorem readExtent_eq_ok_iff {width : ℕ} {f : ℕ → Body} {body : Body} :
    readExtent width f bs = .ok (body, rest) ↔
      ∃ digits : Bytes, digits.length = width ∧ f (Bytes.toNat digits) = body ∧ bs = digits ++ rest := by
  rw [readExtent, map_eq_ok_iff]
  constructor
  · rintro ⟨⟨n, after⟩, htake, heq⟩
    obtain ⟨rfl, rfl⟩ := Prod.mk.inj heq
    obtain ⟨digits, hlength, rfl, hsplit⟩ := takeNat_eq_ok_iff.mp htake
    exact ⟨digits, hlength, rfl, hsplit⟩
  · rintro ⟨digits, hlength, rfl, hsplit⟩
    exact ⟨(Bytes.toNat digits, rest), takeNat_eq_ok_iff.mpr ⟨digits, hlength, rfl, hsplit⟩, rfl⟩

/-- After the marker `b`, the header ends where `rest` starts; with any payload of the size read, it is
the part of a value before its members. -/
def Opens (b : UInt8) (bs rest : Bytes) (body : Body) : Prop :=
  ∃ digits, bs = digits ++ rest ∧ ∀ payload : Bytes, payload.length = body.payload →
    IsHead (b :: (digits ++ payload)) body.children

variable {b : UInt8} {body : Body}

theorem opens_of_fixed {fixed : Body}
    (h : (.ok (fixed, bs) : Except ReadError (Body × Bytes)) = .ok (body, rest))
    (hhead : ∀ payload : Bytes, payload.length = fixed.payload → IsHead (b :: payload) fixed.children) :
    Opens b bs rest body := by
  obtain ⟨rfl, rfl⟩ := Prod.mk.inj (Except.ok.inj h)
  exact ⟨[], rfl, hhead⟩

theorem opens_of_bare {children : ℕ}
    (h : (.ok (⟨0, children⟩, bs) : Except ReadError (Body × Bytes)) = .ok (body, rest))
    (hhead : IsHead [b] children) : Opens b bs rest body := by
  refine opens_of_fixed h fun payload hp => ?_
  obtain rfl := List.eq_nil_of_length_eq_zero hp
  exact hhead

theorem opens_of_sized {width : ℕ} {f : ℕ → Body} (h : readExtent width f bs = .ok (body, rest))
    (hhead : ∀ digits payload : Bytes, digits.length = width →
      payload.length = (f (Bytes.toNat digits)).payload →
        IsHead (b :: digits ++ payload) (f (Bytes.toNat digits)).children) :
    Opens b bs rest body := by
  obtain ⟨digits, hlength, rfl, hsplit⟩ := readExtent_eq_ok_iff.mp h
  exact ⟨digits, hsplit, fun payload => hhead digits payload hlength⟩

theorem opens_of_counted {width : ℕ} {g : ℕ → ℕ}
    (h : readExtent width (⟨0, g ·⟩) bs = .ok (body, rest))
    (hhead : ∀ digits : Bytes, digits.length = width →
      IsHead (b :: digits) (g (Bytes.toNat digits))) : Opens b bs rest body := by
  refine opens_of_sized h fun digits payload hd hp => ?_
  obtain rfl := List.eq_nil_of_length_eq_zero hp
  rw [List.append_nil]
  exact hhead digits hd

/-- What is read after a marker completes a header. -/
theorem opens_of_readBody (h : readBody (.ofByte b) bs = .ok (body, rest)) : Opens b bs rest body := by
  have hb := Marker.isAnnouncedBy_ofByte b
  cases hm : Marker.ofByte b <;> rw [hm] at h hb <;>
    simp only [Marker.isAnnouncedBy, Bool.and_eq_true, decide_eq_true_eq, beq_iff_eq,
      List.contains_iff_mem] at hb
  case fixPos n => exact opens_of_bare h (.scalar (hb.2 ▸ .positive hb.1))
  case fixNeg n => exact opens_of_bare h (.scalar (hb.2 ▸ .negative (by omega)))
  case null => exact opens_of_bare h (.scalar (.constant (by simp [hb])))
  case bool => exact opens_of_bare h (.scalar (.constant (List.mem_cons_of_mem _ hb)))
  case float | uint | int =>
    exact opens_of_fixed h fun payload hp => .scalar (.number (hp ▸ hb))
  case fixStr size =>
    refine opens_of_fixed h fun payload hp => ?_
    have hheader : IsTextHeader [b] payload.length := hp ▸ hb.2 ▸ .short hb.1
    exact .text hheader
  case str width =>
    refine opens_of_sized (f := (⟨·, 0⟩)) h fun digits payload hd hp => ?_
    have hheader : IsTextHeader (b :: digits) payload.length := hp ▸ .long (hd ▸ hb)
    exact .text hheader
  case bin width =>
    refine opens_of_sized (f := (⟨·, 0⟩)) h fun digits payload hd hp => ?_
    have hheader : IsBinaryHeader (b :: digits) payload.length := hp ▸ .long (hd ▸ hb)
    exact .binary hheader
  case fixArray count => exact opens_of_bare h (.array (hb.2 ▸ .short hb.1))
  case array width =>
    exact opens_of_counted (g := (·)) h fun digits hd => .array (.long (hd ▸ hb))
  case fixMap count => exact opens_of_bare h (.map (hb.2 ▸ .short hb.1))
  case map width =>
    exact opens_of_counted (g := (2 * ·)) h fun digits hd => .map (.long (hd ▸ hb))
  all_goals cases h

theorem readHead_of_isSized {f : ℕ → Body} {base limit : ℕ} {tags : List (UInt8 × ℕ)}
    (hshort : ∀ n < limit, ∀ bs, readBody (.ofByte (UInt8.ofNat (base + n))) bs = .ok (f n, bs))
    (hlong : ∀ tag ∈ tags, ∀ bs, readBody (.ofByte tag.1) bs = readExtent tag.2 f bs)
    {header : Bytes} (h : IsSized base limit tags header n) (rest : Bytes) :
    readHead (header ++ rest) = .ok (f n, rest) := by
  cases h with
  | short hn => exact hshort n hn rest
  | @long tag digits htag =>
    change readBody (.ofByte tag) (digits ++ rest) = _
    rw [hlong _ htag]
    exact readExtent_eq_ok_iff.mpr ⟨digits, rfl, rfl, rfl⟩

theorem readHead_of_isTextHeader {header : Bytes} (h : IsTextHeader header n) (rest : Bytes) :
    readHead (header ++ rest) = .ok (⟨n, 0⟩, rest) := by
  refine readHead_of_isSized (f := (⟨·, 0⟩)) (fun n hn bs => ?_) ?_ h rest
  · rw [Marker.ofByte_fixStr hn]
    rfl
  · simp only [textTags, List.forall_mem_cons]
    exact ⟨fun _ => rfl, fun _ => rfl, fun _ => rfl, by simp⟩

theorem readHead_of_isBinaryHeader {header : Bytes} (h : IsBinaryHeader header n) (rest : Bytes) :
    readHead (header ++ rest) = .ok (⟨n, 0⟩, rest) := by
  refine readHead_of_isSized (f := (⟨·, 0⟩)) (fun n hn => absurd hn n.not_lt_zero) ?_ h rest
  simp only [binaryTags, List.forall_mem_cons]
  exact ⟨fun _ => rfl, fun _ => rfl, fun _ => rfl, by simp⟩

theorem readHead_of_isArrayHeader {header : Bytes} (h : IsArrayHeader header n) (rest : Bytes) :
    readHead (header ++ rest) = .ok (⟨0, n⟩, rest) := by
  refine readHead_of_isSized (f := (⟨0, ·⟩)) (fun n hn bs => ?_) ?_ h rest
  · rw [Marker.ofByte_fixArray hn]
    rfl
  · simp only [arrayTags, List.forall_mem_cons]
    exact ⟨fun _ => rfl, fun _ => rfl, by simp⟩

theorem readHead_of_isMapHeader {header : Bytes} (h : IsMapHeader header n) (rest : Bytes) :
    readHead (header ++ rest) = .ok (⟨0, 2 * n⟩, rest) := by
  refine readHead_of_isSized (f := (⟨0, 2 * ·⟩)) (fun n hn bs => ?_) ?_ h rest
  · rw [Marker.ofByte_fixMap hn]
    rfl
  · simp only [mapTags, List.forall_mem_cons]
    exact ⟨fun _ => rfl, fun _ => rfl, by simp⟩

theorem openValue_of_isScalar {bytes : Bytes} (h : IsScalar bytes) (rest : Bytes) :
    openValue (bytes ++ rest) = .ok (0, rest) := by
  cases h with
  | positive h =>
    exact openValue_of_readHead
      (readHead_singleton (Marker.ofByte_fixPos h) (fun _ => rfl) rest) rfl
  | negative h =>
    exact openValue_of_readHead
      (readHead_singleton (Marker.ofByte_fixNeg h) (fun _ => rfl) rest) rfl
  | constant h => fin_cases h <;> rfl
  | @number tag digits h =>
    -- The digits are not read; they are what follows the marker.
    have hbody : ∀ t ∈ numberTags, readBody (.ofByte t.1) (digits ++ rest) =
        .ok (⟨t.2, 0⟩, digits ++ rest) := by
      simp only [numberTags, List.forall_mem_cons]
      exact ⟨rfl, rfl, rfl, rfl, rfl, rfl, rfl, rfl, rfl, rfl, by simp⟩
    have hhead : readHead (tag :: digits ++ rest) = .ok (⟨digits.length, 0⟩, digits ++ rest) :=
      hbody _ h
    exact openValue_of_readHead hhead (Bytes.dropExact_append digits rest)

theorem openValue_of_isHead {head : Bytes} (h : IsHead head n) (rest : Bytes) :
    openValue (head ++ rest) = .ok (n, rest) := by
  cases h with
  | scalar h => exact openValue_of_isScalar h rest
  | text h =>
    rw [List.append_assoc]
    exact openValue_of_readHead (readHead_of_isTextHeader h _) (Bytes.dropExact_append _ rest)
  | binary h =>
    rw [List.append_assoc]
    exact openValue_of_readHead (readHead_of_isBinaryHeader h _) (Bytes.dropExact_append _ rest)
  | array h => exact openValue_of_readHead (readHead_of_isArrayHeader h rest) rfl
  | map h => exact openValue_of_readHead (readHead_of_isMapHeader h rest) rfl

/-- Opening a value takes the part of it before its members, and tells how many those are. -/
theorem openValue_eq_ok_iff :
    openValue bs = .ok (n, rest) ↔ ∃ head, IsHead head n ∧ bs = head ++ rest := by
  constructor
  · intro h
    obtain ⟨⟨marker, after⟩, hmarker, hopen⟩ := bind_eq_ok_iff.mp h
    obtain ⟨⟨body, start⟩, hbody, hclose⟩ := bind_eq_ok_iff.mp hopen
    cases bs with
    | nil => cases hmarker
    | cons b bs =>
      obtain ⟨rfl, rfl⟩ := Prod.mk.inj (Except.ok.inj hmarker)
      obtain ⟨digits, rfl, hhead⟩ := opens_of_readBody hbody
      simp only at hclose
      split at hclose
      · next stop hd =>
        obtain ⟨rfl, rfl⟩ := Prod.mk.inj (Except.ok.inj hclose)
        obtain ⟨hsplit, hlength⟩ := Bytes.dropExact_eq_some hd
        have hpayload : (start.take body.payload).length = body.payload := by
          rw [List.length_take]
          omega
        refine ⟨_, hhead _ hpayload, ?_⟩
        rw [List.cons_append, List.append_assoc, ← hsplit]
      · cases hclose
  · rintro ⟨head, h, rfl⟩
    exact openValue_of_isHead h rest

end Heads

/-!
A value is its head and the values that belong to it. The reader counts values still owed where the
grammar nests, so both directions are about any number of values one after another.
-/

theorem exists_pairs {P : Bytes → Prop} (n : ℕ) {values : List Bytes} (hlength : values.length = 2 * n)
    (h : ∀ value ∈ values, P value) :
    ∃ entries : List (Bytes × Bytes), entries.length = n ∧
      (∀ entry ∈ entries, P entry.1) ∧ (∀ entry ∈ entries, P entry.2) ∧
        values.flatten = entries.flatMap fun entry => entry.1 ++ entry.2 := by
  induction n generalizing values with
  | zero =>
    obtain rfl := List.eq_nil_of_length_eq_zero hlength
    exact ⟨[], by simp⟩
  | succ n ih =>
    match values, hlength, h with
    | key :: value :: values, hlength, h =>
      simp only [List.forall_mem_cons] at h
      have hrest : values.length = 2 * n := by
        simp only [List.length_cons] at hlength
        omega
      obtain ⟨entries, hn, hk, hv, heq⟩ := ih hrest h.2.2
      refine ⟨(key, value) :: entries, by simp [hn], ?_, ?_, ?_⟩
      · exact List.forall_mem_cons.mpr ⟨h.1, hk⟩
      · exact List.forall_mem_cons.mpr ⟨h.2.1, hv⟩
      · simp [heq]

theorem IsHead.isValue {head : Bytes} {members : List Bytes} (h : IsHead head members.length)
    (hs : ∀ member ∈ members, IsValue member) : IsValue (head ++ members.flatten) := by
  generalize hn : members.length = n at h
  cases h with
  | scalar h =>
    obtain rfl := List.eq_nil_of_length_eq_zero hn
    simpa using IsValue.scalar h
  | text h =>
    obtain rfl := List.eq_nil_of_length_eq_zero hn
    simpa using IsValue.text h
  | binary h =>
    obtain rfl := List.eq_nil_of_length_eq_zero hn
    simpa using IsValue.binary h
  | array h => exact .array (hn ▸ h) hs
  | @map _ count h =>
    obtain ⟨entries, rfl, hk, hv, heq⟩ := exists_pairs count hn hs
    rw [heq]
    exact .map h hk hv

/-- The values skipped are values, one after another at the front of the bytes. -/
theorem exists_values_of_skipValues {owed : ℕ} {bs rest : Bytes} (h : skipValues owed bs = .ok rest) :
    ∃ values : List Bytes, values.length = owed ∧ (∀ value ∈ values, IsValue value) ∧
      bs = values.flatten ++ rest := by
  fun_induction skipValues owed bs with
  | case1 bs => exact ⟨[], rfl, by simp, by simpa using h⟩
  | case2 bs owed e he => cases h
  | case3 bs owed children after hopen _ ih =>
    -- The first of the values skipped after the head belong to it; the others come after it.
    obtain ⟨head, hhead, rfl⟩ := openValue_eq_ok_iff.mp hopen
    obtain ⟨values, hlength, hs, rfl⟩ := ih h
    have hmembers : (values.take children).length = children := by
      rw [List.length_take]
      omega
    refine ⟨(head ++ (values.take children).flatten) :: values.drop children, ?_, ?_, ?_⟩
    · rw [List.length_cons, List.length_drop]
      omega
    · refine List.forall_mem_cons.mpr ⟨?_, fun value hv => hs value (List.mem_of_mem_drop hv)⟩
      exact IsHead.isValue (hmembers.symm ▸ hhead) fun value hv => hs value (List.mem_of_mem_take hv)
    · have hflatten := congrArg List.flatten (List.take_append_drop children values)
      rw [List.flatten_append] at hflatten
      rw [List.flatten_cons, ← hflatten]
      simp only [List.append_assoc]

/-- A value is one value to the reader. -/
theorem skipValues_of_isValue {value : Bytes} (h : IsValue value) (owed : ℕ) (rest : Bytes) :
    skipValues (owed + 1) (value ++ rest) = skipValues owed rest := by
  induction h generalizing owed rest with
  | scalar h => rw [skipValues_succ (openValue_of_isHead (.scalar h) rest), Nat.zero_add]
  | text h => rw [skipValues_succ (openValue_of_isHead (.text h) rest), Nat.zero_add]
  | binary h => rw [skipValues_succ (openValue_of_isHead (.binary h) rest), Nat.zero_add]
  | @array header items h _ ih =>
    have hskip := skipValues_flatMap 1 ih owed rest
    rw [Nat.one_mul, List.flatMap_id'] at hskip
    rw [List.append_assoc, skipValues_succ (openValue_of_isHead (.array h) _), hskip]
  | map h _ _ ihk ihv =>
    rw [List.append_assoc, skipValues_succ (openValue_of_isHead (.map h) _)]
    refine skipValues_flatMap 2 (fun entry he owed rest => ?_) owed rest
    rw [List.append_assoc, ihk entry he, ihv entry he]

/-- A value is skipped if and only if there is one, and what is left is what comes after it. -/
theorem skipValue_eq_ok_iff {bs rest : Bytes} :
    skipValue bs = .ok rest ↔ ∃ value, IsValue value ∧ bs = value ++ rest := by
  constructor
  · intro h
    obtain ⟨values, hlength, hs, rfl⟩ := exists_values_of_skipValues h
    obtain ⟨value, rfl⟩ := List.length_eq_one_iff.mp hlength
    exact ⟨value, hs value List.mem_cons_self, by simp⟩
  · rintro ⟨value, h, rfl⟩
    rw [skipValue, skipValues_of_isValue h, skipValues_zero]

end FalconAccount.Msgpack
