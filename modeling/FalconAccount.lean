import FalconAccount.Address
import FalconAccount.Address.Json
import FalconAccount.Assembly.Error
import FalconAccount.Assembly.Instruction
import FalconAccount.Assembly.Parser
import FalconAccount.Bytes
import FalconAccount.Bytes.Base32
import FalconAccount.Bytes.Base64
import FalconAccount.Bytes.Hex
import FalconAccount.Bytes.Hex.Lenient
import FalconAccount.Bytes.Varuint
import FalconAccount.CommandLine.Command
import FalconAccount.CommandLine.Effect
import FalconAccount.CommandLine.Host
import FalconAccount.CommandLine.Program
import FalconAccount.CommandLine.Usage
import FalconAccount.CompiledSearch
import FalconAccount.ControlProgram
import FalconAccount.Curve
import FalconAccount.Derivation
import FalconAccount.Dialogue
import FalconAccount.Digits
import FalconAccount.Files.Error
import FalconAccount.Files.FileSystem
import FalconAccount.Files.Path
import FalconAccount.GroupReader
import FalconAccount.Hash
import FalconAccount.Http
import FalconAccount.Json.Parser
import FalconAccount.Json.Record
import FalconAccount.Json.Value
import FalconAccount.Json.Writer
import FalconAccount.Key
import FalconAccount.KeyFile
import FalconAccount.Ledger.Feed
import FalconAccount.Ledger.Simulator
import FalconAccount.LogicSig
import FalconAccount.Main
import FalconAccount.Msgpack.Marker
import FalconAccount.Msgpack.Reader
import FalconAccount.Msgpack.Value
import FalconAccount.Network
import FalconAccount.NodeClient
import FalconAccount.Params
import FalconAccount.Params.Json
import FalconAccount.Parties
import FalconAccount.Proofs.AccountSearch
import FalconAccount.Proofs.AddressText
import FalconAccount.Proofs.AnsweredDialogues
import FalconAccount.Proofs.Base32Text
import FalconAccount.Proofs.ByteNumbers
import FalconAccount.Proofs.Cancellation
import FalconAccount.Proofs.CanonicalRecords
import FalconAccount.Proofs.ChargedSize
import FalconAccount.Proofs.CommandChecks
import FalconAccount.Proofs.CommandRuns
import FalconAccount.Proofs.CommandStages
import FalconAccount.Proofs.CompilationOrder
import FalconAccount.Proofs.CompiledSearch
import FalconAccount.Proofs.ConfirmingHost
import FalconAccount.Proofs.ControlSource
import FalconAccount.Proofs.CurveField
import FalconAccount.Proofs.CurvePoints
import FalconAccount.Proofs.DeclaredProgram
import FalconAccount.Proofs.Disassembly
import FalconAccount.Proofs.FailurePhase
import FalconAccount.Proofs.FallibleSteps
import FalconAccount.Proofs.FileReplacement
import FalconAccount.Proofs.FileSystemLaws
import FalconAccount.Proofs.GroupBinding
import FalconAccount.Proofs.GroupBuilding
import FalconAccount.Proofs.GroupCuts
import FalconAccount.Proofs.GroupFees
import FalconAccount.Proofs.GroupGrammar
import FalconAccount.Proofs.GroupMembers
import FalconAccount.Proofs.GroupWire
import FalconAccount.Proofs.HexText
import FalconAccount.Proofs.JsonNumerals
import FalconAccount.Proofs.KeyFileText
import FalconAccount.Proofs.KeyTexts
import FalconAccount.Proofs.LedgerHistory
import FalconAccount.Proofs.LedgerPayment
import FalconAccount.Proofs.LedgerWaits
import FalconAccount.Proofs.LenientHex
import FalconAccount.Proofs.MsgpackGrammar
import FalconAccount.Proofs.MsgpackReading
import FalconAccount.Proofs.MsgpackValues
import FalconAccount.Proofs.PaymentCourse
import FalconAccount.Proofs.PaymentRequests
import FalconAccount.Proofs.PaymentStages
import FalconAccount.Proofs.RoundBound
import FalconAccount.Proofs.RoundNode
import FalconAccount.Proofs.RoundServer
import FalconAccount.Proofs.SelfDelimiting
import FalconAccount.Proofs.Signing
import FalconAccount.Proofs.SkippedValues
import FalconAccount.Proofs.SourceParts
import FalconAccount.Proofs.SourceText
import FalconAccount.Proofs.SourceWords
import FalconAccount.Proofs.SpelledOperands
import FalconAccount.Proofs.Transcript
import FalconAccount.Proofs.WaitingTurns
import FalconAccount.Proofs.WireUnambiguous
import FalconAccount.ProtocolError
import FalconAccount.Request
import FalconAccount.Saturating
import FalconAccount.Send
import FalconAccount.SigningTool
import FalconAccount.Text.Blank
import FalconAccount.Text.Combining
import FalconAccount.Text.Numeral
import FalconAccount.Text.Quoted
import FalconAccount.Text.Ranges
import FalconAccount.Text.Replace
import FalconAccount.Text.Unprintable
import FalconAccount.Text.Utf8
import FalconAccount.Transaction
import FalconAccount.TransactionGroup
