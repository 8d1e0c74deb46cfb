import FalconAccount.CommandLine.Program
import FalconAccount.Proofs.FallibleSteps

/-!
# What a command checks first

A command reads its key file, and then checks all that needs no further question: the keys, the receiver,
and where the node is. Only what passes every check goes on.
-/

namespace FalconAccount

theorem KeyFile.requirePublic_eq_ok_iff {k : KeyFile} {path : String} {key : PublicKey} :
    k.requirePublic path = .ok key ↔ k.publicKey = some key := by
  rw [requirePublic]
  cases k.publicKey with
  | none => simp
  | some _ => simp

namespace CommandLine

namespace Attempt

variable {α β γ : Type}

theorem pure_eq_ofExcept (a : α) : (pure a : Attempt α) = ofExcept (pure a) := rfl

theorem throw_eq_ofExcept (fault : Fault) : (throw fault : Attempt α) = ofExcept (throw fault) := rfl

theorem ite_ofExcept (c : Prop) [Decidable c] (x y : Except Fault α) :
    (if c then ofExcept x else ofExcept y) = ofExcept (if c then x else y) :=
  (apply_ite ofExcept c x y).symm

theorem bind_assoc (x : Attempt α) (f : α → Attempt β) (g : β → Attempt γ) :
    (x >>= f) >>= g = x >>= fun a => f a >>= g := by
  refine (Dialogue.bind_assoc _ _ _).trans (congrArg (Dialogue.bind x) (funext fun result => ?_))
  cases result with
  | error e => rfl
  | ok a => rfl

theorem ofExcept_bind (result : Except Fault α) (f : α → Except Fault β) :
    (ofExcept result >>= fun a => ofExcept (f a)) = ofExcept (result >>= f) := by
  cases result with
  | error e => rfl
  | ok a => rfl

theorem ofExcept_ok_bind (a : α) (f : α → Attempt β) : (ofExcept (.ok a) >>= f) = f a := rfl

theorem run_perform_bind (e : Effect) (f : e.Reply → Attempt α) :
    (perform e >>= f).run = .ask e fun reply => (f reply).run := rfl

end Attempt

def keysIn (keyFile : String) (content : Except OsError Bytes) : Except Fault KeyFile :=
  (KeyFile.load keyFile content).mapError fun e => e.toFault.context "failed to read --key"

theorem loadKeys_eq (keyFile : String) :
    loadKeys keyFile = Attempt.perform (.read keyFile) >>= fun content =>
      Attempt.ofExcept (keysIn keyFile content) := rfl

theorem keysIn_eq_ok_iff {keyFile : String} {content : Except OsError Bytes} {keys : KeyFile} :
    keysIn keyFile content = .ok keys ↔ KeyFile.load keyFile content = .ok keys :=
  mapError_eq_ok_iff

section Address

variable {keyFile : String} {content : Except OsError Bytes}

def addressIn (keyFile : String) (content : Except OsError Bytes) : Except Fault Address := do
  let keys ← keysIn keyFile content
  let key ← keys.requirePublic keyFile
  let account ← (Derivation.search key).mapError fun e => e.toFault.context "error deriving address"
  return account.address

theorem deriveFrom_eq (keyFile : String) :
    deriveFrom keyFile = Attempt.perform (.read keyFile) >>= fun content =>
      Attempt.ofExcept (addressIn keyFile content) := by
  simp only [deriveFrom, loadKeys_eq, Attempt.pure_eq_ofExcept, Attempt.ofExcept_bind,
    Attempt.bind_assoc, addressIn]

/-- The key file loads, it holds a public key, and the search finds this account for it. -/
def HoldsAccount (keyFile : String) (content : Except OsError Bytes) (account : Derivation) : Prop :=
  ∃ keys key, KeyFile.load keyFile content = .ok keys ∧ keys.publicKey = some key ∧
    Derivation.search key = .ok account

theorem addressIn_eq_ok_iff {address : Address} :
    addressIn keyFile content = .ok address ↔
      ∃ account, HoldsAccount keyFile content account ∧ account.address = address := by
  simp only [addressIn, bind_eq_ok_iff, pure_eq_ok_iff, mapError_eq_ok_iff, keysIn_eq_ok_iff,
    KeyFile.requirePublic_eq_ok_iff]
  constructor
  · rintro ⟨keys, hload, key, hkey, account, haccount, haddress⟩
    exact ⟨account, ⟨keys, key, hload, hkey, haccount⟩, haddress⟩
  · rintro ⟨account, ⟨keys, key, hload, hkey, haccount⟩, haddress⟩
    exact ⟨keys, hload, key, hkey, account, haccount, haddress⟩

theorem HoldsAccount.addressIn_eq {account : Derivation} (h : HoldsAccount keyFile content account) :
    addressIn keyFile content = .ok account.address :=
  addressIn_eq_ok_iff.mpr ⟨account, h, rfl⟩

theorem HoldsAccount.address_eq {account other : Derivation}
    (h : HoldsAccount keyFile content account) (hother : HoldsAccount keyFile content other) :
    account.address = other.address :=
  Except.ok.inj (h.addressIn_eq.symm.trans hother.addressIn_eq)

end Address

namespace Payment

variable {p : Payment} {content : Except OsError Bytes} {ready : PreparedPayment}

def check (p : Payment) (content : Except OsError Bytes) : Except Fault PreparedPayment := do
  let keys ← keysIn p.keyFile content
  let key ← keys.requirePublic p.keyFile
  if keys.privateKey.isNone then throw (noPrivateKey p.keyFile)
  let receiver ← (Address.parse p.receiver).mapError fun e => ⟨"invalid --to address", [e.message]⟩
  let endpoint ← (Endpoint.resolve p.network p.nodeUrl p.nodeToken).mapError fun e => .plain e.message
  return ⟨key, receiver, endpoint⟩

theorem prepare_eq (p : Payment) :
    prepare p = Attempt.perform (.read p.keyFile) >>= fun content =>
      Attempt.ofExcept (p.check content) := by
  simp only [prepare, loadKeys_eq, Attempt.pure_eq_ofExcept, Attempt.throw_eq_ofExcept,
    Attempt.ofExcept_bind, Attempt.bind_assoc, Attempt.ite_ofExcept, check]

/-- The key file loads and holds both keys, the receiver is an address, and there is a node to ask. -/
structure Ready (p : Payment) (content : Except OsError Bytes) (ready : PreparedPayment) : Prop where
  keys : ∃ privateKey, KeyFile.load p.keyFile content = .ok ⟨some ready.key, some privateKey⟩
  receiver : Address.parse p.receiver = .ok ready.receiver
  endpoint : Endpoint.resolve p.network p.nodeUrl p.nodeToken = .ok ready.endpoint

/-- A payment goes on if and only if it is ready. -/
theorem check_eq_ok_iff : p.check content = .ok ready ↔ p.Ready content ready := by
  simp only [check, bind_eq_ok_iff, keysIn_eq_ok_iff, KeyFile.requirePublic_eq_ok_iff]
  constructor
  · rintro ⟨⟨publicKey, privateKey⟩, hload, key, rfl, hrest⟩
    cases privateKey with
    | none => cases hrest
    | some privateKey =>
      obtain ⟨receiver, hreceiver, hrest⟩ := bind_eq_ok_iff.mp hrest
      obtain ⟨endpoint, hendpoint, hready⟩ := bind_eq_ok_iff.mp hrest
      obtain rfl := pure_eq_ok_iff.mp hready
      exact ⟨⟨privateKey, hload⟩, mapError_eq_ok_iff.mp hreceiver, mapError_eq_ok_iff.mp hendpoint⟩
  · rintro ⟨⟨privateKey, hload⟩, hreceiver, hendpoint⟩
    refine ⟨_, hload, _, rfl, ?_⟩
    rw [hreceiver, hendpoint]
    rfl

theorem Ready.check_eq (h : p.Ready content ready) : p.check content = .ok ready :=
  check_eq_ok_iff.mpr h

theorem exists_check_eq_error
    (h : (∀ publicKey privateKey,
        KeyFile.load p.keyFile content ≠ .ok ⟨some publicKey, some privateKey⟩) ∨
      (∀ receiver, Address.parse p.receiver ≠ .ok receiver) ∨
      (∀ endpoint, Endpoint.resolve p.network p.nodeUrl p.nodeToken ≠ .ok endpoint)) :
    ∃ fault, p.check content = .error fault := by
  cases hcheck : p.check content with
  | error fault => exact ⟨fault, rfl⟩
  | ok ready =>
    obtain ⟨⟨privateKey, hkeys⟩, hreceiver, hendpoint⟩ := check_eq_ok_iff.mp hcheck
    rcases h with h | h | h
    · exact absurd hkeys (h _ _)
    · exact absurd hreceiver (h _)
    · exact absurd hendpoint (h _)

end Payment

end CommandLine

end FalconAccount
