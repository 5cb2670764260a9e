import SealedLua.Lua.Machine
import SealedLua.Text.Lossy
import SealedLua.Text.Quoted
import SealedLua.Engine.Evaluation
import SealedLua.Engine.Interpreter
import SealedLua.Engine.Recorded
import SealedLua.Crypto.Payload
import SealedLua.Storage.Directory
import SealedLua.Storage.Memory
import SealedLua.Storage.Observed
import SealedLua.Gateway.Session
import SealedLua.Platform.Host
import SealedLua.CommandLine.Failure
import SealedLua.CommandLine.Run
import SealedLua.Main
import SealedLua.Proofs.Crypto.Keystream
import SealedLua.Proofs.Crypto.Opening
import SealedLua.Proofs.Crypto.ClosedForm
import SealedLua.Proofs.Crypto.Tampering
import SealedLua.Proofs.Engine.Slots
import SealedLua.Proofs.Engine.Parametric
import SealedLua.Proofs.Engine.Primitives
import SealedLua.Proofs.Gateway.CommandSlots
import SealedLua.Proofs.Gateway.Requests
import SealedLua.Proofs.Gateway.Unopened
import SealedLua.Proofs.Gateway.Reads
import SealedLua.Proofs.Pool
import SealedLua.Proofs.Storage.Records
import SealedLua.Proofs.Storage.Failing
import SealedLua.Proofs.Storage.Cleanup
import SealedLua.Proofs.Storage.Automata
import SealedLua.Proofs.Storage.Concurrent
import SealedLua.Proofs.Storage.Desk
import SealedLua.Proofs.Storage.Processes
import SealedLua.Proofs.Files.Paths
import SealedLua.Proofs.Files.Entries
import SealedLua.Proofs.Storage.Directory
import SealedLua.Proofs.Storage.FileNames
import SealedLua.Proofs.Storage.Identifiers
import SealedLua.Proofs.Gateway.Records
import SealedLua.Proofs.Gateway.Sessions
import SealedLua.Proofs.Gateway.Secret
import SealedLua.Proofs.Gateway.Routes
import SealedLua.Proofs.Gateway.Nesting
import SealedLua.Proofs.Gateway.Limits
import SealedLua.Proofs.Gateway.Interpreters
import SealedLua.Proofs.Gateway.Capacity
import SealedLua.Proofs.Gateway.Codes
import SealedLua.Proofs.Number.Exact
import SealedLua.Proofs.Number.Reading
import SealedLua.Proofs.Number.Value
import SealedLua.Proofs.Renaming.Values
import SealedLua.Proofs.Gateway.Arguments
import SealedLua.Proofs.Lua.Lexing
import SealedLua.Proofs.Lua.Spelling
import SealedLua.Proofs.Lua.Parsing
import SealedLua.Proofs.Lua.Constructors
import SealedLua.Proofs.Engine.DumpChunk
import SealedLua.Proofs.Engine.QuoteFunction
import SealedLua.Proofs.Engine.Dumping
import SealedLua.Proofs.Engine.Evaluations
import SealedLua.Proofs.Engine.Preparation
import SealedLua.Proofs.Engine.Quotation
import SealedLua.Proofs.Engine.Kinds
import SealedLua.Proofs.Engine.RoundTrip
import SealedLua.Proofs.Engine.Failures
import SealedLua.Proofs.Lua.Raising
import SealedLua.Proofs.Engine.Texts
import SealedLua.Proofs.Engine.Refusing
import SealedLua.Proofs.Engine.Canonical
import SealedLua.Proofs.Engine.Cycles
import SealedLua.Proofs.Gateway.Copies
import SealedLua.Proofs.Engine.Protocol
import SealedLua.Proofs.Engine.StackDiscipline
import SealedLua.Proofs.Gateway.HostFrames
import SealedLua.Proofs.Confinement.Unreached
import SealedLua.Proofs.Engine.CallingConvention
import SealedLua.Proofs.Gateway.Documents
import SealedLua.Proofs.Engine.Sandboxing
import SealedLua.Proofs.CommandLine.Stores
