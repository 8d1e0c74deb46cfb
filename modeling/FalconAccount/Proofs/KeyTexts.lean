import FalconAccount.Proofs.AccountSearch
import FalconAccount.Proofs.KeyFileText
import FalconAccount.Proofs.LenientHex

/-!
# The keys in a key file

A key file is read if and only if each of its two texts is blank or denotes a byte string of the length of
its key, and then it gives just these keys. In every other case the error tells the first text that is
wrong, and what is wrong with it.
-/

namespace FalconAccount

namespace PrivateKey

theorem length_toList (k : PrivateKey) : k.toList.length = privateKeySize := by
  simp [toList]

theorem ofBytes_toList (key : PrivateKey) : ofBytes key.toList = .ok key := by
  rw [ofBytes, toList, Bytes.toVector?_toList]

theorem exists_toList {bs : Bytes} (h : bs.length = privateKeySize) :
    ∃ key : PrivateKey, key.toList = bs :=
  ⟨⟨⟨bs.toArray, by simpa using h⟩⟩, rfl⟩

theorem ofBytes_of_length_ne {bs : Bytes} (h : bs.length ≠ privateKeySize) :
    ofBytes bs = .error (.privateKey bs.length) := by
  rw [ofBytes, Bytes.toVector?, dif_neg h]

end PrivateKey

namespace KeyFile

open Text Hex

/-- What the two kinds of keys have in common: the byte strings of one length, and an error that tells
any other length. -/
structure IsKeyKind {κ : Type} (ofBytes : Bytes → Except KeySizeError κ) (toList : κ → Bytes)
    (size : ℕ) (wrongSize : ℕ → KeySizeError) : Prop where
  size_pos : 0 < size
  ofBytes_toList : ∀ key, ofBytes (toList key) = .ok key
  length_toList : ∀ key, (toList key).length = size
  exists_toList : ∀ bs : Bytes, bs.length = size → ∃ key, toList key = bs
  ofBytes_of_length_ne : ∀ bs : Bytes, bs.length ≠ size → ofBytes bs = .error (wrongSize bs.length)

theorem isKeyKind_public :
    IsKeyKind PublicKey.ofBytes PublicKey.toList publicKeySize .publicKey where
  size_pos := by decide
  ofBytes_toList := PublicKey.ofBytes_toList
  length_toList := PublicKey.length_toList
  exists_toList := fun _ => PublicKey.exists_toList
  ofBytes_of_length_ne := fun _ => PublicKey.ofBytes_of_length_ne

theorem isKeyKind_private :
    IsKeyKind PrivateKey.ofBytes PrivateKey.toList privateKeySize .privateKey where
  size_pos := by decide
  ofBytes_toList := PrivateKey.ofBytes_toList
  length_toList := PrivateKey.length_toList
  exists_toList := fun _ => PrivateKey.exists_toList
  ofBytes_of_length_ne := fun _ => PrivateKey.ofBytes_of_length_ne

/-- The text is blank and holds no key, or it denotes the bytes of one. -/
def Shows (text : List Char) : Option Bytes → Prop
  | none => IsBlankText text
  | some bs => Denotes text bs

def IsKeyText (text : List Char) (size : ℕ) : Prop :=
  IsBlankText text ∨ ∃ bs, bs.length = size ∧ Denotes text bs

section OneKey

variable {κ : Type} {ofBytes : Bytes → Except KeySizeError κ} {toList : κ → Bytes} {size : ℕ}
  {wrongSize : ℕ → KeySizeError} {badHex : HexError → KeyFileError} {text : String} {bs : Bytes}

theorem eq_nil_of_isBlankText (hblank : IsBlankText text.toList) (h : Denotes text.toList bs) :
    bs = [] := by
  have hread := read_eq_ok_iff.mpr h
  rw [Hex.read, trim_eq_nil_iff.mpr hblank] at hread
  exact (Except.ok.inj hread).symm

theorem readKey_of_isBlankText (hblank : IsBlankText text.toList) :
    readKey badHex ofBytes text = .ok none := by
  rw [readKey, trim_eq_nil_iff.mpr hblank]
  rfl

/-- Trimming twice does no more than trimming once. -/
theorem readKey_of_not_isBlankText (hblank : ¬ IsBlankText text.toList) :
    readKey badHex ofBytes text = (do
      let bytes ← (Hex.read text.toList).mapError badHex
      let key ← (ofBytes bytes).mapError .keySize
      return some key) := by
  have hne : (trim text.toList).isEmpty = false := by
    rw [List.isEmpty_eq_false_iff, Ne, trim_eq_nil_iff]
    exact hblank
  have hread : Hex.read (trim text.toList) = Hex.read text.toList := by
    rw [Hex.read, trim_trim, Hex.read]
  rw [readKey, hne, hread]
  rfl

theorem readKey_of_error {cause : HexError} (hblank : ¬ IsBlankText text.toList)
    (h : Hex.read text.toList = .error cause) :
    readKey badHex ofBytes text = .error (badHex cause) := by
  rw [readKey_of_not_isBlankText hblank, h]
  rfl

theorem readKey_of_denotes (hblank : ¬ IsBlankText text.toList) (h : Denotes text.toList bs) :
    readKey badHex ofBytes text = ((ofBytes bs).mapError .keySize).map some := by
  rw [readKey_of_not_isBlankText hblank, read_eq_ok_iff.mpr h]
  rfl

variable (kind : IsKeyKind ofBytes toList size wrongSize)
include kind

theorem readKey_of_length_ne (hblank : ¬ IsBlankText text.toList) (h : Denotes text.toList bs)
    (hlength : bs.length ≠ size) :
    readKey badHex ofBytes text = .error (.keySize (wrongSize bs.length)) := by
  rw [readKey_of_denotes hblank h, kind.ofBytes_of_length_ne bs hlength]
  rfl

theorem readKey_of_denotes_key {key : κ} (h : Denotes text.toList (toList key)) :
    readKey badHex ofBytes text = .ok (some key) := by
  have hblank : ¬ IsBlankText text.toList := by
    intro hblank
    have hlength := congrArg List.length (eq_nil_of_isBlankText hblank h)
    rw [kind.length_toList] at hlength
    exact kind.size_pos.ne' hlength
  rw [readKey_of_denotes hblank h, kind.ofBytes_toList]
  rfl

/-- A text gives just the key that it shows. -/
theorem readKey_eq_ok_iff {key? : Option κ} :
    readKey badHex ofBytes text = .ok key? ↔ Shows text.toList (key?.map toList) := by
  constructor
  · intro h
    by_cases hblank : IsBlankText text.toList
    · rw [readKey_of_isBlankText hblank] at h
      obtain rfl := Except.ok.inj h
      exact hblank
    · cases hread : Hex.read text.toList with
      | error cause =>
        rw [readKey_of_error hblank hread] at h
        cases h
      | ok bs =>
        have hdenotes := read_eq_ok_iff.mp hread
        by_cases hlength : bs.length = size
        · obtain ⟨key, rfl⟩ := kind.exists_toList bs hlength
          rw [readKey_of_denotes_key kind hdenotes] at h
          obtain rfl := Except.ok.inj h
          exact hdenotes
        · rw [readKey_of_length_ne kind hblank hdenotes hlength] at h
          cases h
  · intro h
    cases key? with
    | none => exact readKey_of_isBlankText h
    | some key => exact readKey_of_denotes_key kind h

/-- The texts that show a key or none are those that hold no key or one of the right length. -/
theorem isKeyText_iff :
    IsKeyText text.toList size ↔ ∃ key? : Option κ, Shows text.toList (key?.map toList) := by
  constructor
  · rintro (hblank | ⟨bs, hlength, h⟩)
    · exact ⟨none, hblank⟩
    · obtain ⟨key, rfl⟩ := kind.exists_toList bs hlength
      exact ⟨some key, h⟩
  · rintro ⟨_ | key, h⟩
    · exact .inl h
    · exact .inr ⟨_, kind.length_toList key, h⟩

end OneKey

section Both

variable {publicText privateText : String} {e : KeyFileError} {publicKey : Option PublicKey}

theorem ofTexts_of_public_error
    (h : readKey .publicHex PublicKey.ofBytes publicText = .error e) :
    ofTexts publicText privateText = .error e := by
  rw [ofTexts, h]
  rfl

/-- The private text is looked at only after the public one. -/
theorem ofTexts_of_private_error
    (hpublic : readKey .publicHex PublicKey.ofBytes publicText = .ok publicKey)
    (h : readKey .privateHex PrivateKey.ofBytes privateText = .error e) :
    ofTexts publicText privateText = .error e := by
  rw [ofTexts, hpublic, h]
  rfl

theorem ofTexts_eq_ok_iff {k : KeyFile} :
    ofTexts publicText privateText = .ok k ↔
      Shows publicText.toList (k.publicKey.map PublicKey.toList) ∧
        Shows privateText.toList (k.privateKey.map PrivateKey.toList) := by
  simp only [ofTexts, bind_eq_ok_iff, pure_eq_ok_iff, readKey_eq_ok_iff isKeyKind_public,
    readKey_eq_ok_iff isKeyKind_private]
  constructor
  · rintro ⟨publicKey, hpublic, privateKey, hprivate, rfl⟩
    exact ⟨hpublic, hprivate⟩
  · rintro ⟨hpublic, hprivate⟩
    exact ⟨_, hpublic, _, hprivate, rfl⟩

end Both

/-- The text is the hexadecimal text of the bytes, in lower or upper case, behind one mark at most and
with white space around; or it is blank, for no bytes. -/
def Copies (text : List Char) : Option Bytes → Prop
  | none => IsBlankText text
  | some bs => ∃ digits, (digits = chars bs ∨ digits = (chars bs).map Char.toUpper) ∧ Frames text digits

theorem Copies.shows {text : List Char} {bs? : Option Bytes} (h : Copies text bs?) :
    Shows text bs? := by
  cases bs? with
  | none => exact h
  | some bs =>
    obtain ⟨digits, hdigits, hframes⟩ := h
    exact ⟨digits, hframes, write_chars hdigits⟩

/-- What a key file with these two texts gives. -/
structure ReadsTexts (publicText privateText : List Char) (result : Except KeyFileError KeyFile) :
    Prop where
  /-- The keys are just those that the texts show. -/
  ok_iff : ∀ k : KeyFile, result = .ok k ↔
    Shows publicText (k.publicKey.map PublicKey.toList) ∧
      Shows privateText (k.privateKey.map PrivateKey.toList)
  succeeds_iff : (∃ k, result = .ok k) ↔
    IsKeyText publicText publicKeySize ∧ IsKeyText privateText privateKeySize
  /-- The hexadecimal texts of keys give these keys. -/
  copies : ∀ k : KeyFile, Copies publicText (k.publicKey.map PublicKey.toList) →
    Copies privateText (k.privateKey.map PrivateKey.toList) → result = .ok k
  /-- A wrong public text is reported, whatever the private one. -/
  publicHex : ¬ IsBlankText publicText → (∀ bs, ¬ Denotes publicText bs) →
    ∃ cause, Hex.read publicText = .error cause ∧ result = .error (.publicHex cause)
  publicSize : ¬ IsBlankText publicText → ∀ bs, Denotes publicText bs → bs.length ≠ publicKeySize →
    result = .error (.keySize (.publicKey bs.length))
  /-- A wrong private text is reported only behind a public one that is not wrong. -/
  privateHex : IsKeyText publicText publicKeySize → ¬ IsBlankText privateText →
    (∀ bs, ¬ Denotes privateText bs) →
    ∃ cause, Hex.read privateText = .error cause ∧ result = .error (.privateHex cause)
  privateSize : IsKeyText publicText publicKeySize → ¬ IsBlankText privateText →
    ∀ bs, Denotes privateText bs → bs.length ≠ privateKeySize →
    result = .error (.keySize (.privateKey bs.length))

theorem exists_read_eq_error {text : List Char} (h : ∀ bs, ¬ Denotes text bs) :
    ∃ cause, Hex.read text = .error cause := by
  cases hread : Hex.read text with
  | error cause => exact ⟨cause, rfl⟩
  | ok bs => exact absurd (read_eq_ok_iff.mp hread) (h bs)

theorem readsTexts_ofTexts (publicText privateText : String) :
    ReadsTexts publicText.toList privateText.toList (ofTexts publicText privateText) where
  ok_iff _ := ofTexts_eq_ok_iff
  succeeds_iff := by
    rw [isKeyText_iff isKeyKind_public, isKeyText_iff isKeyKind_private]
    constructor
    · rintro ⟨k, hk⟩
      obtain ⟨hpublic, hprivate⟩ := ofTexts_eq_ok_iff.mp hk
      exact ⟨⟨_, hpublic⟩, _, hprivate⟩
    · rintro ⟨⟨publicKey, hpublic⟩, privateKey, hprivate⟩
      exact ⟨⟨publicKey, privateKey⟩, ofTexts_eq_ok_iff.mpr ⟨hpublic, hprivate⟩⟩
  copies k hpublic hprivate := ofTexts_eq_ok_iff.mpr ⟨hpublic.shows, hprivate.shows⟩
  publicHex hblank h := by
    obtain ⟨cause, hread⟩ := exists_read_eq_error h
    exact ⟨cause, hread, ofTexts_of_public_error (readKey_of_error hblank hread)⟩
  publicSize hblank bs h hlength :=
    ofTexts_of_public_error (readKey_of_length_ne isKeyKind_public hblank h hlength)
  privateHex hpublic hblank h := by
    obtain ⟨publicKey, hpublic⟩ := (isKeyText_iff isKeyKind_public).mp hpublic
    obtain ⟨cause, hread⟩ := exists_read_eq_error h
    exact ⟨cause, hread, ofTexts_of_private_error ((readKey_eq_ok_iff isKeyKind_public).mpr hpublic)
      (readKey_of_error hblank hread)⟩
  privateSize hpublic hblank bs h hlength := by
    obtain ⟨publicKey, hpublic⟩ := (isKeyText_iff isKeyKind_public).mp hpublic
    exact ofTexts_of_private_error ((readKey_eq_ok_iff isKeyKind_public).mpr hpublic)
      (readKey_of_length_ne isKeyKind_private hblank h hlength)

section Written

open Json (IsPlainChar)

theorem load_fileOf {publicText privateText : String} (path : String)
    (hpublic : ∀ c ∈ publicText.toList, IsPlainChar c)
    (hprivate : ∀ c ∈ privateText.toList, IsPlainChar c) :
    load path (.ok (Bytes.ofString (fileOf publicText privateText))) =
      ofTexts publicText privateText := by
  have hascii : ∀ c ∈ (fileOf publicText privateText).toList, c.toNat < 128 := by
    have hopen : ∀ c ∈ "\x7b\"public_key\":\"".toList, c.toNat < 128 := by simp
    have hnext : ∀ c ∈ "\",\"private_key\":\"".toList, c.toNat < 128 := by simp
    have hclose : ∀ c ∈ "\"\x7d".toList, c.toNat < 128 := by simp
    unfold fileOf
    simp only [String.toList_append, List.forall_mem_append]
    exact ⟨⟨⟨⟨hopen, fun c hc => (hpublic c hc).2.1⟩, hnext⟩, fun c hc => (hprivate c hc).2.1⟩, hclose⟩
  have hdecode : Utf8.decode (Bytes.ofString (fileOf publicText privateText)) =
      .ok (fileOf publicText privateText).toList := Utf8.decodeFrom_ofChars hascii 0
  unfold load
  simp only [hdecode, String.ofList_toList, parse, texts?_fileOf hpublic hprivate]

theorem isPlainChar_encode (bs : Bytes) : ∀ c ∈ (Hex.encode bs).toList, IsPlainChar c := by
  rw [Hex.encode, String.toList_ofList]
  exact forall_mem_chars (by decide) bs

theorem shows_encode (bs : Bytes) : Shows (Hex.encode bs).toList (some bs) := by
  refine ⟨chars bs, ?_, write_chars (.inl rfl)⟩
  have hlist : (Hex.encode bs).toList = [] ++ ([] ++ chars bs) ++ [] := by simp [Hex.encode]
  rw [hlist]
  exact .intro isBlankText_nil (by decide) isBlankText_nil

theorem load_encode (path : String) (publicKey : PublicKey) (privateKey : PrivateKey) :
    load path (.ok (Bytes.ofString
      (fileOf (Hex.encode publicKey.toList) (Hex.encode privateKey.toList)))) =
        .ok ⟨some publicKey, some privateKey⟩ := by
  rw [load_fileOf path (isPlainChar_encode _) (isPlainChar_encode _)]
  exact ofTexts_eq_ok_iff.mpr ⟨shows_encode _, shows_encode _⟩

end Written

/-- A text is read as hexadecimal if and only if it is digits of either case, behind one mark at most and
with white space around, and what is read are the bytes that they write. So a key file gives the keys that
its two texts show, or the error of the first text that is wrong. -/
theorem parse_readsTexts {file publicText privateText : String}
    (h : texts? (Bytes.ofString file) = some (publicText, privateText)) :
    (∀ text bs, Hex.read text = .ok bs ↔ Denotes text bs) ∧
      (∀ text, (∃ bs, Hex.read text = .ok bs) ↔
        ∃ digits, Frames text digits ∧ ∀ c ∈ digits, IsHexDigit c) ∧
      ReadsTexts publicText.toList privateText.toList (parse file) := by
  refine ⟨fun _ _ => read_eq_ok_iff, fun text => ?_, ?_⟩
  · simp only [read_eq_ok_iff]
    constructor
    · rintro ⟨bs, digits, hframes, hwrite⟩
      exact ⟨digits, hframes, hwrite.isHexDigit⟩
    · rintro ⟨digits, hframes, hdigits⟩
      obtain ⟨bs, hwrite⟩ := exists_write hdigits
      exact ⟨bs, digits, hframes, hwrite⟩
  · rw [parse, h]
    exact readsTexts_ofTexts publicText privateText

/-- A file with a public key behind a blank and a mark: alone it is read, and behind it two bytes are no
private key. -/
theorem parse_readsTexts_marked :
    let key : PublicKey := ⟨.replicate publicKeySize 0⟩
    let publicText := " 0X" ++ Hex.encode key.toList
    parse (fileOf publicText "") = .ok ⟨some key, none⟩ ∧
      parse (fileOf publicText "0x123") = .error (.keySize (.privateKey 2)) := by
  intro key publicText
  have hlist : publicText.toList = [' '] ++ (['0', 'X'] ++ chars key.toList) ++ [] := by
    simp [publicText, Hex.encode]
  have hframes : Frames publicText.toList (chars key.toList) := by
    rw [hlist]
    exact .intro (List.forall_mem_singleton.mpr (by decide)) (by decide) isBlankText_nil
  have hplain : ∀ c ∈ publicText.toList, Json.IsPlainChar c := by
    rw [hlist, List.append_nil, ← List.append_assoc, List.forall_mem_append]
    exact ⟨Json.isPlainChar_of_all (by decide), forall_mem_chars (by decide) key.toList⟩
  have hnone : ∀ c ∈ "".toList, Json.IsPlainChar c := Json.isPlainChar_of_all (by decide)
  have htwo : ∀ c ∈ "0x123".toList, Json.IsPlainChar c := Json.isPlainChar_of_all (by decide)
  obtain ⟨-, -, halone⟩ := parse_readsTexts (texts?_fileOf hplain hnone)
  obtain ⟨-, -, hboth⟩ := parse_readsTexts (texts?_fileOf hplain htwo)
  refine ⟨halone.copies ⟨some key, none⟩ ⟨_, .inl rfl, hframes⟩ isBlankText_nil, ?_⟩
  have hkey : IsKeyText publicText.toList publicKeySize :=
    .inr ⟨key.toList, key.length_toList, _, hframes, write_chars (.inl rfl)⟩
  have htext : "0x123".toList = [] ++ (['0', 'x'] ++ ['1', '2', '3']) ++ [] := by decide
  have hdenotes : Denotes "0x123".toList [0x01, 0x23] := by
    rw [htext]
    exact ⟨_, .intro isBlankText_nil (by decide) isBlankText_nil, write_iff.mpr (by decide)⟩
  have hblank : ¬ IsBlankText "0x123".toList :=
    fun h => absurd (h '0' (by decide)) (by decide)
  exact hboth.privateSize hkey hblank _ hdenotes (by decide)

end KeyFile

end FalconAccount
