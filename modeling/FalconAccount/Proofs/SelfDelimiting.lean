import FalconAccount.Proofs.MsgpackGrammar

/-!
# Readers look at nothing but what they take

What comes after a header, a key or a value has no say in how it is read, and bytes are found to be
wrong at the first byte that is wrong. So the only bytes about which more bytes can change the verdict
are those that end too early, and a value that is cut anywhere is reported as truncated.
-/

namespace FalconAccount.Msgpack

/-- A reader that looks at no byte after those it takes, nor after those that it finds wrong. -/
structure IsSelfDelimiting {α : Type} (read : Bytes → Except ReadError (α × Bytes)) : Prop where
  ok : ∀ {bs rest : Bytes} {a : α}, read bs = .ok (a, rest) →
    ∃ taken, bs = taken ++ rest ∧ ∀ more, read (taken ++ more) = .ok (a, more)
  error : ∀ {bs : Bytes} {e : ReadError}, read bs = .error e → e ≠ .truncated →
    ∀ more, read (bs ++ more) = .error e

namespace IsSelfDelimiting

variable {α β : Type} {read : Bytes → Except ReadError (α × Bytes)}

/-- Of what is read whole, every part that ends too early is reported as truncated. -/
theorem truncated (h : IsSelfDelimiting read) {bs cut : Bytes} {a : α} (hread : read bs = .ok (a, []))
    (hcut : cut <+: bs) (hne : cut ≠ bs) : read cut = .error .truncated := by
  obtain ⟨missing, rfl⟩ := hcut
  have hmissing : missing ≠ [] := by
    rintro rfl
    exact hne (List.append_nil cut).symm
  cases hc : read cut with
  | ok result =>
    -- What is read of the part would be read of the whole too, and something would be left.
    obtain ⟨taken, rfl, hmore⟩ := h.ok hc
    rw [List.append_assoc, hmore] at hread
    have hrest := (Prod.mk.inj (Except.ok.inj hread)).2
    exact absurd (List.append_eq_nil_iff.mp hrest).2 hmissing
  | error e =>
    by_contra he
    have hne : e ≠ .truncated := fun h => he (h ▸ rfl)
    rw [h.error hc hne] at hread
    cases hread

theorem pure (a : α) : IsSelfDelimiting fun bs => .ok (a, bs) where
  ok := by
    intro bs rest b h
    obtain ⟨rfl, rfl⟩ := Prod.mk.inj (Except.ok.inj h)
    exact ⟨[], rfl, fun _ => rfl⟩
  error := fun h => by cases h

theorem fail (e : ReadError) : IsSelfDelimiting (α := α) fun _ => .error e where
  ok := fun h => by cases h
  error := fun h _ _ => h

theorem bind (h : IsSelfDelimiting read) {next : α → Bytes → Except ReadError (β × Bytes)}
    (hnext : ∀ a, IsSelfDelimiting (next a)) :
    IsSelfDelimiting fun bs => read bs >>= fun r => next r.1 r.2 where
  ok := by
    intro bs rest b hread
    obtain ⟨⟨a, between⟩, hfirst, hsecond⟩ := bind_eq_ok_iff.mp hread
    obtain ⟨taken, rfl, hmore⟩ := h.ok hfirst
    obtain ⟨taken', rfl, hmore'⟩ := (hnext a).ok hsecond
    refine ⟨taken ++ taken', (List.append_assoc taken taken' rest).symm, fun more => ?_⟩
    rw [List.append_assoc]
    exact bind_eq_ok_iff.mpr ⟨(a, taken' ++ more), hmore _, hmore' more⟩
  error := by
    intro bs e hread hne more
    cases hfirst : read bs with
    | error e' =>
      rw [hfirst] at hread
      obtain rfl : e' = e := Except.error.inj hread
      rw [h.error hfirst hne more]
      rfl
    | ok r =>
      obtain ⟨taken, rfl, hmore⟩ := h.ok hfirst
      rw [hfirst] at hread
      rw [List.append_assoc, hmore]
      exact (hnext r.1).error hread hne more

theorem map (h : IsSelfDelimiting read) (f : α → β) :
    IsSelfDelimiting fun bs => (read bs).map fun r => (f r.1, r.2) := by
  let next (a : α) (bs : Bytes) : Except ReadError (β × Bytes) := .ok (f a, bs)
  have hbind : IsSelfDelimiting fun bs => read bs >>= fun r => next r.1 r.2 :=
    h.bind fun a => pure (f a)
  have heq (bs : Bytes) : ((read bs).map fun r => (f r.1, r.2)) =
      read bs >>= fun r => .ok (f r.1, r.2) := by
    cases read bs <;> rfl
  simpa only [heq] using hbind

end IsSelfDelimiting

open IsSelfDelimiting

theorem isSelfDelimiting_takeBytes (n : ℕ) : IsSelfDelimiting (takeBytes n) where
  ok := by
    intro bs rest taken h
    obtain ⟨rfl, rfl⟩ := takeBytes_eq_ok_iff.mp h
    exact ⟨taken, rfl, takeBytes_append taken⟩
  error := by
    intro bs e h hne
    unfold takeBytes at h
    split at h
    · cases h
    · exact absurd (Except.error.inj h).symm hne

theorem isSelfDelimiting_takeNat (width : ℕ) : IsSelfDelimiting (takeNat width) :=
  (isSelfDelimiting_takeBytes width).map Bytes.toNat

theorem isSelfDelimiting_takeMarker : IsSelfDelimiting takeMarker where
  ok := by
    intro bs rest marker h
    cases bs with
    | nil => cases h
    | cons b bs =>
      obtain ⟨rfl, rfl⟩ := Prod.mk.inj (Except.ok.inj h)
      exact ⟨[b], rfl, fun _ => rfl⟩
  error := by
    intro bs e h hne
    cases bs with
    | nil => exact absurd (Except.error.inj h).symm hne
    | cons b bs => cases h

theorem isSelfDelimiting_readMarked {α : Type} {read : Marker → Bytes → Except ReadError (α × Bytes)}
    (h : ∀ marker, IsSelfDelimiting (read marker)) : IsSelfDelimiting (readMarked read) :=
  isSelfDelimiting_takeMarker.bind h

theorem isSelfDelimiting_readMapHeader : IsSelfDelimiting readMapHeader := by
  rw [readMapHeader_eq]
  refine isSelfDelimiting_readMarked fun marker => ?_
  cases marker
  case fixMap n => exact pure n
  case map width => exact isSelfDelimiting_takeNat width
  all_goals exact fail _

theorem isSelfDelimiting_readKey : IsSelfDelimiting readKey := by
  have hsize : IsSelfDelimiting (readMarked Marker.readKeySize) := by
    refine isSelfDelimiting_readMarked fun marker => ?_
    cases marker
    case fixStr n => exact pure n
    case str width => exact isSelfDelimiting_takeNat width
    all_goals exact fail _
  simpa only [← readKey_eq] using hsize.bind isSelfDelimiting_takeBytes

theorem isSelfDelimiting_readExtent (width : ℕ) (f : ℕ → Body) :
    IsSelfDelimiting (readExtent width f) :=
  (isSelfDelimiting_takeNat width).map f

theorem isSelfDelimiting_readHead : IsSelfDelimiting readHead := by
  refine isSelfDelimiting_readMarked fun marker => ?_
  cases marker
  case str width => exact isSelfDelimiting_readExtent width (⟨·, 0⟩)
  case bin width => exact isSelfDelimiting_readExtent width (⟨·, 0⟩)
  case array width => exact isSelfDelimiting_readExtent width (⟨0, ·⟩)
  case map width => exact isSelfDelimiting_readExtent width (⟨0, 2 * ·⟩)
  case reserved | ext | fixExt => exact fail _
  all_goals exact pure _

/-- A value is opened by taking its head and the payload that the head announces. -/
theorem openValue_eq (bs : Bytes) :
    openValue bs = readHead bs >>= fun r =>
      (takeBytes r.1.payload r.2).map fun payload => (r.1.children, payload.2) := by
  cases bs with
  | nil => rfl
  | cons b bs =>
    change (readBody (.ofByte b) bs >>= fun r => _) = (readBody (.ofByte b) bs >>= fun r => _)
    congr 1
    funext r
    rw [takeBytes]
    cases Bytes.dropExact r.1.payload r.2 <;> rfl

theorem isSelfDelimiting_openValue : IsSelfDelimiting openValue := by
  have hbind := isSelfDelimiting_readHead.bind fun body =>
    (isSelfDelimiting_takeBytes body.payload).map fun _ => body.children
  simpa only [← openValue_eq] using hbind

theorem skipValues_of_openValue_error {bs : Bytes} {e : ReadError} (h : openValue bs = .error e)
    (owed : ℕ) : skipValues (owed + 1) bs = .error e := by
  rw [skipValues]
  split
  · next e' he => rw [Except.error.inj (h.symm.trans he)]
  · next children rest hopen => cases h.symm.trans hopen

def passValues (owed : ℕ) (bs : Bytes) : Except ReadError (Unit × Bytes) :=
  (skipValues owed bs).map fun rest => ((), rest)

/-- However many values are owed, skipping them is one value opened after another. -/
theorem isSelfDelimiting_passValues (owed : ℕ) : IsSelfDelimiting (passValues owed) where
  ok := by
    intro bs rest u h
    simp only [passValues, map_eq_ok_iff, Prod.mk.injEq, true_and, exists_eq_right] at h ⊢
    fun_induction skipValues owed bs with
    | case1 bs =>
      obtain rfl := Except.ok.inj h
      exact ⟨[], rfl, fun more => skipValues_zero more⟩
    | case2 bs owed e he => cases h
    | case3 bs owed children after hopen _ ih =>
      obtain ⟨head, rfl, hhead⟩ := isSelfDelimiting_openValue.ok hopen
      obtain ⟨taken, rfl, hmore⟩ := ih h
      refine ⟨head ++ taken, (List.append_assoc head taken rest).symm, fun more => ?_⟩
      rw [List.append_assoc, skipValues_succ (hhead _)]
      exact hmore more
  error := by
    intro bs e h hne more
    simp only [passValues, map_eq_error_iff] at h ⊢
    fun_induction skipValues owed bs with
    | case1 bs => cases h
    | case2 bs owed e' he =>
      obtain rfl := Except.error.inj h
      exact skipValues_of_openValue_error (isSelfDelimiting_openValue.error he hne more) owed
    | case3 bs owed children after hopen _ ih =>
      obtain ⟨head, rfl, hhead⟩ := isSelfDelimiting_openValue.ok hopen
      rw [List.append_assoc, skipValues_succ (hhead _)]
      exact ih h

end FalconAccount.Msgpack
