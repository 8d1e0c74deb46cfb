import FalconAccount.Proofs.JsonNumerals
import FalconAccount.Proofs.RoundNode

/-!
# A node over HTTP that commits in a given round

The smallest node that can be waited at: its only state is its last round, and its answers are the JSON
texts of a node that knows one transaction.
-/

namespace FalconAccount

namespace RoundServer

open NodeClient

def roundBody (round : UInt64) : Bytes :=
  0x7b :: (Json.entry "last-round" (Json.numeral round.toNat) ++ [0x7d])

def pendingBody (round : UInt64) : Bytes :=
  0x7b :: (Json.entry "confirmed-round" (Json.numeral round.toNat) ++
    0x2c :: (Json.entry "pool-error" [0x22, 0x22] ++ [0x7d]))

theorem parse?_roundBody (round : UInt64) :
    Json.parse? (roundBody round) =
      some (.object [((Bytes.ofString "last-round").map .byte, .natural round.toNat)]) := by
  refine Json.parse?_of_value? (by simp [roundBody]) fun fuel => ?_
  exact Json.value?_object (Json.entries?_entry_last (by decide)
    (Json.value?_numeral round.toNat_lt rfl rfl (fuel + 1)))

theorem parse?_pendingBody (round : UInt64) :
    Json.parse? (pendingBody round) =
      some (.object [((Bytes.ofString "confirmed-round").map .byte, .natural round.toNat),
        ((Bytes.ofString "pool-error").map .byte, .string [])]) := by
  refine Json.parse?_of_value? (by simp [pendingBody]; omega) fun fuel => ?_
  exact Json.value?_object (Json.entries?_entry_next (by decide)
    (Json.value?_numeral round.toNat_lt rfl rfl (fuel + 1))
    (Json.entries?_entry_last (by decide) rfl))

theorem interpret_roundBody (round : UInt64) :
    interpret readRound (.answered 200 (some (roundBody round))) = .ok round := by
  have hname : Json.text? ((Bytes.ofString "last-round").map .byte) = some "last-round" := by
    decide +kernel
  have hrecord : Json.record? ["last-round"]
      (.object [((Bytes.ofString "last-round").map .byte, .natural round.toNat)]) =
        some [("last-round", .natural round.toNat)] := by
    simp only [Json.record?, Json.knownEntries?, List.mapM_cons, List.mapM_nil, hname,
      Option.map_some, Option.bind_eq_bind, Option.bind_some, Option.pure_def]
    rfl
  have hread : readRound (.object [((Bytes.ofString "last-round").map .byte, .natural round.toNat)]) =
      some round := by
    rw [readRound, hrecord]
    simp [Json.Record.required, Json.Record.get?, Json.word?, round.toNat_lt]
  simp [interpret, parse?_roundBody, hread, Http.isSuccess]

theorem interpret_pendingBody (round : UInt64) :
    interpret readPending (.answered 200 (some (pendingBody round))) = .ok ⟨some round, ""⟩ := by
  have hround : Json.text? ((Bytes.ofString "confirmed-round").map .byte) = some "confirmed-round" := by
    decide +kernel
  have herror : Json.text? ((Bytes.ofString "pool-error").map .byte) = some "pool-error" := by
    decide +kernel
  let record : Json.Record :=
    [("confirmed-round", .natural round.toNat), ("pool-error", .string [])]
  have hrecord : Json.record? ["confirmed-round", "pool-error"]
      (.object [((Bytes.ofString "confirmed-round").map .byte, .natural round.toNat),
        ((Bytes.ofString "pool-error").map .byte, .string [])]) = some record := by
    simp only [Json.record?, Json.knownEntries?, List.mapM_cons, List.mapM_nil, hround, herror,
      Option.map_some, Option.bind_eq_bind, Option.bind_some, Option.pure_def]
    rfl
  have hword : record.optional "confirmed-round" none Json.optionalWord? = some (some round) := by
    change Json.optionalWord? (.natural round.toNat) = _
    simp [Json.optionalWord?, Json.word?, round.toNat_lt]
  have hempty : record.optional "pool-error" "" Json.string? = some "" := by
    change Json.string? (.string []) = _
    decide +kernel
  have hread : readPending (.object [((Bytes.ofString "confirmed-round").map .byte,
      .natural round.toNat), ((Bytes.ofString "pool-error").map .byte, .string [])]) =
      some ⟨some round, ""⟩ := by
    rw [readPending, hrecord]
    simp only [Option.bind_eq_bind, Option.bind_some, hword, hempty]
  simp [interpret, parse?_pendingBody, hread, Http.isSuccess]

def blockPrefix : String := "/v2/status/wait-for-block-after/"

def blockRound? (endpoint : Endpoint) (url : String) : Option ℕ :=
  ((endpoint.url ++ blockPrefix).toList.isPrefixOf? url.toList).map fun digits =>
    Nat.ofDigitChars 10 digits 0

/-- Answers a request in a round. A wait for a block takes the node to the round after the one asked for,
if it is not there already. -/
def answer (endpoint : Endpoint) (commit round : UInt64) (request : Http.Request) :
    Http.Reply × UInt64 :=
  match blockRound? endpoint request.url with
  | some after =>
    let next := UInt64.ofNat (max round.toNat (after + 1))
    (.answered 200 (some (roundBody next)), next)
  | none =>
    if request.url = endpoint.url ++ statusPath then (.answered 200 (some (roundBody round)), round)
    else (.answered 200 (some (pendingBody (if commit ≤ round then commit else 0))), round)

theorem blockPath_eq (after : UInt64) : blockPath after = blockPrefix ++ after.toNat.repr := rfl

theorem blockRound?_blockPath (endpoint : Endpoint) (after : UInt64) :
    blockRound? endpoint (endpoint.url ++ blockPath after) = some after.toNat := by
  have hprefix : (endpoint.url ++ blockPrefix).toList.isPrefixOf?
      (endpoint.url ++ blockPath after).toList = some (Nat.toDigits 10 after.toNat) := by
    rw [List.isPrefixOf?_eq_some_iff_append_eq, blockPath_eq]
    simp only [String.toList_append, List.append_assoc, Nat.toList_repr]
  rw [blockRound?, hprefix, Option.map_some, Nat.ofDigitChars_ten_toDigits]

theorem blockRound?_eq_none {path : String} (endpoint : Endpoint)
    (h : ¬ blockPrefix.toList <+: path.toList) :
    blockRound? endpoint (endpoint.url ++ path) = none := by
  have hprefix : (endpoint.url ++ blockPrefix).toList.isPrefixOf? (endpoint.url ++ path).toList =
      none := by
    rw [Option.eq_none_iff_forall_ne_some]
    intro digits hdigits
    rw [List.isPrefixOf?_eq_some_iff_append_eq] at hdigits
    simp only [String.toList_append, List.append_assoc, List.append_cancel_left_eq] at hdigits
    exact h ⟨digits, hdigits⟩
  rw [blockRound?, hprefix]
  rfl

theorem not_blockPrefix_statusPath : ¬ blockPrefix.toList <+: statusPath.toList := by decide

/-- The path of a transaction leaves those of the status at its fifth character. -/
theorem getElem?_pendingPath (id : String) : (pendingPath id).toList[4]? = some 't' := by
  have hpath : (pendingPath id).toList = "/v2/transactions/pending/".toList ++ id.toList :=
    String.toList_append
  rw [hpath, List.getElem?_append_left (by decide)]
  decide

theorem not_blockPrefix_pendingPath (id : String) :
    ¬ blockPrefix.toList <+: (pendingPath id).toList := by
  rintro ⟨digits, h⟩
  have hfifth := getElem?_pendingPath id
  rw [← h, List.getElem?_append_left (by decide)] at hfifth
  revert hfifth
  decide

theorem pendingPath_ne_statusPath (id : String) : pendingPath id ≠ statusPath := by
  intro h
  have hfifth := getElem?_pendingPath id
  rw [h] at hfifth
  revert hfifth
  decide

theorem answer_status (endpoint : Endpoint) (commit round : UInt64) :
    answer endpoint commit round (getRequest endpoint statusPath) =
      (.answered 200 (some (roundBody round)), round) := by
  simp [answer, getRequest, blockRound?_eq_none endpoint not_blockPrefix_statusPath]

theorem answer_block (endpoint : Endpoint) (commit round after : UInt64) :
    let next := UInt64.ofNat (max round.toNat (after.toNat + 1))
    answer endpoint commit round (getRequest endpoint (blockPath after)) =
      (.answered 200 (some (roundBody next)), next) := by
  simp [answer, getRequest, blockRound?_blockPath]

theorem answer_pending (endpoint : Endpoint) (id : String) (commit round : UInt64) :
    answer endpoint commit round (getRequest endpoint (pendingPath id)) =
      (.answered 200 (some (pendingBody (if commit ≤ round then commit else 0))), round) := by
  have hurl : endpoint.url ++ pendingPath id ≠ endpoint.url ++ statusPath := by
    simpa using pendingPath_ne_statusPath id
  simp [answer, getRequest, blockRound?_eq_none endpoint (not_blockPrefix_pendingPath id), hurl]

theorem commitsIn {endpoint : Endpoint} (htoken : Http.isHeaderValue endpoint.token = true)
    (id : String) (commit : UInt64) :
    CommitsIn (answer endpoint commit) (fun round => round) endpoint id commit where
  token := htoken
  status round := ⟨_, _, answer_status endpoint commit round, interpret_roundBody round, rfl⟩
  block round after hfit := by
    refine ⟨_, _, _, answer_block endpoint commit round after, interpret_roundBody _, ?_⟩
    have hmax : max round.toNat (after.toNat + 1) < UInt64.size := max_lt round.toNat_lt hfit
    rw [UInt64.toNat_ofNat', Nat.mod_eq_of_lt hmax]
  pending round := ⟨_, _, answer_pending endpoint id commit round, interpret_pendingBody _, rfl⟩

end RoundServer

end FalconAccount
