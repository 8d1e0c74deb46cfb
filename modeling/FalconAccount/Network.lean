import FalconAccount.Params
import FalconAccount.Text.Blank
import FalconAccount.Text.Quoted

/-!
# Networks

The networks that a node can serve, their names, and what a node of each reports as its genesis.
-/

namespace FalconAccount

inductive Network where
  | mainNet
  | testNet
  | betaNet
  /-- A private network; a node of any genesis may serve it. -/
  | devNet
  deriving DecidableEq, Repr

namespace Network

def name : Network → String
  | .mainNet => "mainnet"
  | .testNet => "testnet"
  | .betaNet => "betanet"
  | .devNet => "devnet"

/-- What nodes report as genesis; `none` where they may report anything. -/
def genesisId? : Network → Option String
  | .mainNet => some "mainnet-v1.0"
  | .testNet => some "testnet-v1.0"
  | .betaNet => some "betanet-v1.0"
  | .devNet => none

def publicNode? : Network → Option String
  | .mainNet => some "https://mainnet-api.4160.nodely.dev"
  | .testNet => some "https://testnet-api.4160.nodely.dev"
  | .betaNet => some "https://betanet-api.4160.nodely.dev"
  | .devNet => none

def all : List Network := [.mainNet, .testNet, .betaNet, .devNet]

structure UnknownName where
  name : String
  deriving DecidableEq, Repr

/-- The wording, with the names there are. -/
def UnknownName.message (e : UnknownName) : String :=
  let valid := ", ".intercalate (all.map Network.name)
  s!"unknown network {Text.quote e.name.toList} (valid: {valid})"

/-- Reads a name, in either case and with white space around it; an empty one means the main network. -/
def parse (text : String) : Except UnknownName Network :=
  let name := String.ofList ((Text.trim text.toList).map Char.toLower)
  if name.isEmpty then .ok .mainNet
  else match all.find? (·.name == name) with
    | some network => .ok network
    | none => .error ⟨name⟩

/-- True when a node that reports `genesisId` may serve the network. -/
def accepts (network : Network) (genesisId : String) : Bool :=
  match network.genesisId? with
  | some expected => expected == genesisId
  | none => true

end Network

end FalconAccount
