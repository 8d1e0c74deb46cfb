import FalconAccount.Msgpack.Marker

/-!
# Reading msgpack

Reading takes a value off the front of a byte string and gives the bytes after it. Values of unknown
keys are skipped: `skipValues` counts the values still owed, so neither nesting nor a declared count
costs more than the bytes that are there. Extension types are not read.
-/

namespace FalconAccount.Msgpack

inductive ReadError where
  /-- The bytes end inside a value. -/
  | truncated
  | expectedMap (found : Marker)
  | expectedKey (found : Marker)
  /-- The value is of a kind that is not read. -/
  | unsupported (found : Marker)
  deriving DecidableEq, Repr

def ReadError.message : ReadError → String
  | .truncated => "truncated msgpack"
  | .expectedMap found => s!"expected map, found {found.name}"
  | .expectedKey found => s!"expected string key, found {found.name}"
  | .unsupported found => s!"unsupported msgpack marker {found.name}"

def takeBytes (n : Nat) (bs : Bytes) : Except ReadError (Bytes × Bytes) :=
  match Bytes.dropExact n bs with
  | some rest => .ok (bs.take n, rest)
  | none => .error .truncated

def takeNat (width : Nat) (bs : Bytes) : Except ReadError (Nat × Bytes) :=
  (takeBytes width bs).map fun (digits, rest) => (Bytes.toNat digits, rest)

def takeMarker : Bytes → Except ReadError (Marker × Bytes)
  | [] => .error .truncated
  | b :: rest => .ok (.ofByte b, rest)

def readMapHeader (bs : Bytes) : Except ReadError (Nat × Bytes) := do
  let (marker, rest) ← takeMarker bs
  match marker with
  | .fixMap n => .ok (n, rest)
  | .map width => takeNat width rest
  | other => .error (.expectedMap other)

def readKey (bs : Bytes) : Except ReadError (Bytes × Bytes) := do
  let (marker, rest) ← takeMarker bs
  match marker with
  | .fixStr n => takeBytes n rest
  | .str width => do
    let (size, rest) ← takeNat width rest
    takeBytes size rest
  | other => .error (.expectedKey other)

/-- What follows the marker of a value: so many bytes, and after them so many values. -/
structure Body where
  payload : Nat
  children : Nat

/-- A body whose extent is written in `width` bytes. -/
def readExtent (width : Nat) (body : Nat → Body) (bs : Bytes) : Except ReadError (Body × Bytes) :=
  (takeNat width bs).map fun (n, rest) => (body n, rest)

/-- Reads what a marker leaves open about the body of its value. -/
def readBody (marker : Marker) (bs : Bytes) : Except ReadError (Body × Bytes) :=
  match marker with
  | .fixPos _ => .ok (⟨0, 0⟩, bs)
  | .fixNeg _ => .ok (⟨0, 0⟩, bs)
  | .null => .ok (⟨0, 0⟩, bs)
  | .bool _ => .ok (⟨0, 0⟩, bs)
  | .uint width => .ok (⟨width, 0⟩, bs)
  | .int width => .ok (⟨width, 0⟩, bs)
  | .float width => .ok (⟨width, 0⟩, bs)
  | .fixStr size => .ok (⟨size, 0⟩, bs)
  | .str width => readExtent width (⟨·, 0⟩) bs
  | .bin width => readExtent width (⟨·, 0⟩) bs
  | .fixArray n => .ok (⟨0, n⟩, bs)
  | .array width => readExtent width (⟨0, ·⟩) bs
  | .fixMap n => .ok (⟨0, 2 * n⟩, bs)
  | .map width => readExtent width (⟨0, 2 * ·⟩) bs
  | other => .error (.unsupported other)

/-- Takes the marker and payload of a value off the front: how many values belong to it, and the bytes
after the payload. -/
def openValue (bs : Bytes) : Except ReadError (Nat × Bytes) := do
  let (marker, rest) ← takeMarker bs
  let (body, rest) ← readBody marker rest
  match Bytes.dropExact body.payload rest with
  | some rest => .ok (body.children, rest)
  | none => .error .truncated

theorem takeNat_rest_length {width n : Nat} {bs rest : Bytes} (h : takeNat width bs = .ok (n, rest)) :
    rest.length ≤ bs.length := by
  unfold takeNat takeBytes at h
  split at h
  · next after hd =>
    simp only [Except.map, Except.ok.injEq, Prod.mk.injEq] at h
    exact h.2 ▸ Bytes.length_le_of_dropExact hd
  · simp [Except.map] at h

theorem readExtent_rest_length {width : Nat} {f : Nat → Body} {body : Body} {bs rest : Bytes}
    (h : readExtent width f bs = .ok (body, rest)) : rest.length ≤ bs.length := by
  unfold readExtent at h
  cases ht : takeNat width bs with
  | error e => simp [ht, Except.map] at h
  | ok r =>
    simp only [ht, Except.map, Except.ok.injEq, Prod.mk.injEq] at h
    exact h.2 ▸ takeNat_rest_length ht

theorem readBody_rest_length {marker : Marker} {body : Body} {bs rest : Bytes}
    (h : readBody marker bs = .ok (body, rest)) : rest.length ≤ bs.length := by
  cases marker <;> simp only [readBody, Except.ok.injEq, Prod.mk.injEq, reduceCtorEq] at h
  case str | bin | array | map => exact readExtent_rest_length h
  all_goals exact h.2 ▸ Nat.le_refl _

/-- Opening a value takes at least its marker. -/
theorem openValue_rest_length {bs rest : Bytes} {n : Nat} (h : openValue bs = .ok (n, rest)) :
    rest.length < bs.length := by
  cases bs with
  | nil => simp [openValue, takeMarker, bind, Except.bind] at h
  | cons b bs =>
    simp only [openValue, takeMarker, bind, Except.bind] at h
    split at h
    · simp at h
    · next r hr =>
      split at h
      · next after hd =>
        simp only [Except.ok.injEq, Prod.mk.injEq] at h
        have h₁ := readBody_rest_length hr
        have h₂ := Bytes.length_le_of_dropExact hd
        simp only [List.length_cons, ← h.2]
        omega
      · simp at h

/-- The bytes after the next `owed` values. -/
def skipValues (owed : Nat) (bs : Bytes) : Except ReadError Bytes :=
  match owed with
  | 0 => .ok bs
  | owed + 1 =>
    match h : openValue bs with
    | .error e => .error e
    | .ok (children, rest) =>
      have := openValue_rest_length h
      skipValues (children + owed) rest
termination_by bs.length

def skipValue (bs : Bytes) : Except ReadError Bytes :=
  skipValues 1 bs

end FalconAccount.Msgpack
