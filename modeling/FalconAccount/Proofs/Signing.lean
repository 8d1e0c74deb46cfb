import FalconAccount.Proofs.AccountSearch
import FalconAccount.Proofs.GroupBuilding
import FalconAccount.Proofs.GroupWire
import FalconAccount.Proofs.Transcript

/-!
# What a signed group authorises

Signing asks for one signature, of the identifier that the payment has in its group. The program of
every member hashes to the member's sender, so each member is authorised by the account it spends from,
and by nothing that was signed before the group was complete.
-/

namespace FalconAccount

/-- A group on the wire with the signature of its payment. -/
def signedBytes (d : Derivation) (g : TransactionGroup) (signature : Bytes) : Bytes :=
  encodeGroup (signedMembers g d.program signature)

section Sign

variable {σ : Type} {answer : σ → (r : Request) → r.Reply × σ} {s s' : σ} {g : TransactionGroup}
  {d : Derivation}

theorem transcript_signGroup_of_fault {fault : Fault} (hsender : g.payment.sender = d.address)
    (h : answer s (.sign g.payment.id.digest.toList) = (.error fault, s')) :
    (signGroup g d).transcript answer s =
      ⟨.error (.signatureFailure fault), [⟨.sign g.payment.id.digest.toList, .error fault⟩], s'⟩ := by
  unfold signGroup
  rw [if_neg (not_not.mpr hsender)]
  exact Protocol.transcript_bind_error _ (Protocol.transcript_ask_error _ h)

theorem transcript_signGroup_of_empty (hsender : g.payment.sender = d.address)
    (h : answer s (.sign g.payment.id.digest.toList) = (.ok [], s')) :
    (signGroup g d).transcript answer s =
      ⟨.error (.signatureFailure (.plain "signer returned an empty signature")),
        [⟨.sign g.payment.id.digest.toList, .ok []⟩], s'⟩ := by
  unfold signGroup
  rw [if_neg (not_not.mpr hsender)]
  exact Protocol.transcript_bind_ok _ (Protocol.transcript_ask_ok _ h)

theorem transcript_signGroup_of_signature {signature : Bytes}
    (hsender : g.payment.sender = d.address) (hne : signature ≠ [])
    (h : answer s (.sign g.payment.id.digest.toList) = (.ok signature, s')) :
    (signGroup g d).transcript answer s =
      ⟨.ok ⟨signedBytes d g signature, g.payment.id⟩,
        [⟨.sign g.payment.id.digest.toList, .ok signature⟩], s'⟩ := by
  unfold signGroup
  rw [if_neg (not_not.mpr hsender)]
  refine (Protocol.transcript_bind_ok _ (Protocol.transcript_ask_ok _ h)).trans ?_
  rw [if_neg (by simpa using hne)]
  rfl

end Sign

/-- What a signed group says: which members its bytes are the encoding of, who authorises them, and what
identifies them. -/
structure SignedGroup.Authorises (signed : SignedGroup) (g : TransactionGroup) (signature : Bytes)
    (members : List SignedTransaction) : Prop where
  bytes : signed.bytes = encodeGroup members
  /-- The members are those of the group, unchanged and in order. -/
  txns : members.map SignedTransaction.txn = g.transactions
  /-- The program of each member hashes to its sender. -/
  senders : ∀ m ∈ members,
    sha512_256 (Bytes.ofString "Program") m.lsig.program = m.txn.sender.bytes
  /-- The signature is the only argument of the first member, and the fillers have none. -/
  args : members.map (·.lsig.args) = [signature] :: List.replicate g.fillers.length []
  /-- Each member carries the identifier of all of them together. -/
  stamps : ∀ m ∈ members, ∃ id, m.txn.group = some id ∧
    GroupId.ofTransactions (members.map SignedTransaction.txn) = .ok id
  head : members.head?.map SignedTransaction.id = some signed.id
  /-- The identifier of the payment is the first one that a node reads. -/
  read : ∃ ids, transactionIds signed.bytes = .ok ids ∧ ids.head? = some signed.id

section Members

open TransactionGroup

variable {params : SuggestedParams} {mode : FeeMode} {fillerCount : UInt64} {receiver : Address}
  {amount : UInt64} {note : Bytes} {g : TransactionGroup} {d : Derivation} {signature : Bytes}

theorem map_txn_signedMembers (program : ControlProgram) (signature : Bytes) :
    (signedMembers g program signature).map SignedTransaction.txn = g.transactions := by
  simp [signedMembers, TransactionGroup.transactions, Function.comp_def]

theorem senders_signedMembers (h : BuiltFrom params mode fillerCount d.address receiver amount note g) :
    ∀ m ∈ signedMembers g d.program signature,
      sha512_256 (Bytes.ofString "Program") m.lsig.program = m.txn.sender.bytes := by
  intro m hm
  rcases List.mem_cons.mp hm with rfl | hm
  · change _ = g.payment.sender.bytes
    rw [h.payment]
    rfl
  · obtain ⟨t, ht, rfl⟩ := List.mem_map.mp hm
    obtain ⟨index, -, rfl⟩ := h.of_mem_fillers ht
    rfl

theorem fits_signedMembers (h : BuiltFrom params mode fillerCount d.address receiver amount note g)
    (hnote : note.length < UInt32.size)
    (hgenesis : (Bytes.ofString params.genesisId).length < UInt32.size)
    (hsignature : signature.length < UInt32.size)
    (hprogram : d.program.bytes.length < UInt32.size) :
    ∀ m ∈ signedMembers g d.program signature, m.Fits := by
  intro m hm
  rcases List.mem_cons.mp hm with rfl | hm
  · have hpayment : g.payment.Fits := by
      rw [h.payment]
      exact ⟨hnote, hgenesis⟩
    exact ⟨hpayment, hprogram, by simpa [ControlProgram.logicSig] using hsignature,
      show 1 < UInt32.size by decide⟩
  · obtain ⟨t, ht, rfl⟩ := List.mem_map.mp hm
    obtain ⟨index, -, rfl⟩ := h.of_mem_fillers ht
    exact ⟨⟨show 1 < UInt32.size by decide, hgenesis⟩,
      show Filler.program.length < UInt32.size by decide, by simp [Filler.logicSig],
      show 0 < UInt32.size by decide⟩

theorem length_signedMembers (h : BuiltFrom params mode fillerCount d.address receiver amount note g) :
    (signedMembers g d.program signature).length = fillerCount.toNat + 1 := by
  rw [signedMembers, List.length_cons, List.length_map, h.length_fillers]

theorem transactionIds_signedBytes
    (h : BuiltFrom params mode fillerCount d.address receiver amount note g)
    (hfit : ∀ m ∈ signedMembers g d.program signature, m.Fits) (hfillers : fillerCount ≤ 15) :
    transactionIds (signedBytes d g signature) = .ok (g.transactions.map Transaction.id) := by
  have hroom : (signedMembers g d.program signature).length ≤ maxGroupSize := by
    rw [length_signedMembers h]
    exact Nat.succ_le_succ (UInt64.le_iff_toNat_le.mp hfillers)
  rw [transactionIds, signedBytes, GroupReader.readMembers_encodeGroup hfit, if_pos hroom,
    ← map_txn_signedMembers d.program signature, List.map_map]
  rfl

/-- What signing a built group gives says all that a signed group has to say. -/
theorem authorises_signedMembers
    (h : BuiltFrom params mode fillerCount d.address receiver amount note g)
    (hfit : ∀ m ∈ signedMembers g d.program signature, m.Fits) (hfillers : fillerCount ≤ 15) :
    SignedGroup.Authorises ⟨signedBytes d g signature, g.payment.id⟩ g signature
      (signedMembers g d.program signature) where
  bytes := by simp only [signedBytes]
  txns := map_txn_signedMembers d.program signature
  senders := senders_signedMembers h
  args := by
    simp [signedMembers, ControlProgram.logicSig, Filler.logicSig, Function.comp_def]
  stamps := by
    intro m hm
    have htxn : m.txn ∈ g.transactions := by
      rw [← map_txn_signedMembers d.program signature]
      exact List.mem_map_of_mem hm
    refine ⟨g.id, h.group_of_mem htxn, ?_⟩
    rw [map_txn_signedMembers, h.id]
  head := rfl
  read := by
    have hread := transactionIds_signedBytes h hfit hfillers
    refine ⟨g.transactions.map Transaction.id, ?_, ?_⟩
    · rw [hread]
    · rw [TransactionGroup.transactions, List.map_cons, List.head?_cons]

end Members

/-- For the account of a key, building and signing a group of at most fifteen fillers succeeds with any
signer that gives signatures. It asks for one, of the identifier that the payment has with its final fee
and its stamp; and what it gives says all that a signed group has to say. -/
theorem signGroup_authorises {σ : Type} {key : PublicKey} {d : Derivation}
    (hsearch : Derivation.search key = .ok d) (params : SuggestedParams) (mode : FeeMode)
    {fillerCount : UInt64} (hfillers : fillerCount ≤ 15) (receiver : Address) {amount : UInt64}
    (hamount : 0 < amount) {note : Bytes} (hnote : note.length < UInt32.size)
    (hgenesis : (Bytes.ofString params.genesisId).length < UInt32.size) (signer : Signer)
    (hsigner : ∀ message, ∃ signature, signer.sign message = .ok signature ∧ signature ≠ [] ∧
      signature.length < UInt32.size) (node : Node σ) (s : σ) :
    ∃ g signature signed members,
      TransactionGroup.build params mode fillerCount d.address receiver amount note = .ok g ∧
      g.payment = (TransactionGroup.unstampedPayment params mode fillerCount d.address receiver
        amount note).withGroup g.id ∧
      signer.sign g.payment.id.digest.toList = .ok signature ∧
      members.length = fillerCount.toNat + 1 ∧ signed.Authorises g signature members ∧
      let run := (signGroup g d).runBetween node signer Limits.none s
      run.outcome = some (.ok signed) ∧
        run.asked.map Prod.snd = [.sign g.payment.id.digest.toList] ∧ run.state = s := by
  have hpositive : amount ≠ 0 := UInt64.pos_iff_ne_zero.mp hamount
  obtain ⟨g, hbuild, hfrom⟩ := TransactionGroup.exists_build_of_le params mode d.address receiver
    note hpositive hfillers
  obtain ⟨signature, hsign, hne, hlength⟩ := hsigner g.payment.id.digest.toList
  have hsender : g.payment.sender = d.address := by
    rw [hfrom.payment]
    rfl
  have hprogram : d.program.bytes.length < UInt32.size := by
    rw [Derivation.length_program_of_search hsearch]
    decide
  have hanswer : node.answerWith signer s (.sign g.payment.id.digest.toList) =
      (.ok signature, s) := Prod.ext hsign rfl
  have htranscript := transcript_signGroup_of_signature hsender hne hanswer
  obtain ⟨houtcome, hasked, hstate⟩ :=
    Protocol.runBetween_none_transcript node signer (signGroup g d) s
  rw [htranscript] at houtcome hasked hstate
  have hfit := fits_signedMembers hfrom hnote hgenesis hlength hprogram
  exact ⟨g, signature, _, signedMembers g d.program signature, hbuild, hfrom.payment, hsign,
    length_signedMembers hfrom, authorises_signedMembers hfrom hfit hfillers, houtcome, hasked,
    hstate⟩

/-- Three fillers, and a signer that signs everything with one byte. -/
theorem signGroup_authorises_onesKey :
    let params : SuggestedParams := ⟨0, 1000, 70000, 71000, "testnet-v1.0", Digest.zero⟩
    let signer : Signer := ⟨fun _ => .ok [1], 0⟩
    let node : Node Unit := Node.immediate fun _ _ => (.error (.plain "down"), ())
    ∃ g signature signed members,
      TransactionGroup.build params .suggested 3 (Derivation.candidate onesKey 0).address .zero 5 [7] =
        .ok g ∧
      ((signGroup g (Derivation.candidate onesKey 0)).runBetween node signer Limits.none ()).outcome =
        some (.ok signed) ∧
      members.length = 4 ∧ SignedGroup.Authorises signed g signature members := by
  intro params signer node
  obtain ⟨g, signature, signed, members, hbuild, -, -, hlength, hauth, houtcome, -, -⟩ :=
    signGroup_authorises search_onesKey params .suggested (show (3 : UInt64) ≤ 15 by decide) .zero
      (show (0 : UInt64) < 5 by decide) (show [(7 : UInt8)].length < UInt32.size by decide)
      (show (Bytes.ofString "testnet-v1.0").length < UInt32.size by decide)
      signer (fun _ => ⟨[1], rfl, by decide, by decide⟩) node ()
  exact ⟨g, signature, signed, members, hbuild, houtcome, hlength, hauth⟩

end FalconAccount
