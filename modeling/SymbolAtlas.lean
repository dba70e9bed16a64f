import SymbolAtlas.Main
import SymbolAtlas.Server.Scripted
import SymbolAtlas.Proofs.Rpc.Completion
import SymbolAtlas.Proofs.Rpc.Schedule
import SymbolAtlas.Proofs.Json.RoundTrip
import SymbolAtlas.Proofs.Text.Utf8
import SymbolAtlas.Proofs.Rpc.Grammar
import SymbolAtlas.Proofs.Rpc.FrameRoundTrip
import SymbolAtlas.Proofs.Rpc.Pushes
import SymbolAtlas.Proofs.Rpc.Listening
import SymbolAtlas.Proofs.Rpc.Listener
import SymbolAtlas.Proofs.Session.Endings
import SymbolAtlas.Proofs.Session.Exchanges
import SymbolAtlas.Proofs.Session.Conduct
import SymbolAtlas.Proofs.Session.Atomicity
import SymbolAtlas.Proofs.Session.Guarantees
import SymbolAtlas.Proofs.Run.Faults
import SymbolAtlas.Proofs.Run.Safety
import SymbolAtlas.Proofs.Rpc.Outbound
import SymbolAtlas.Proofs.Server.Wire
import SymbolAtlas.Proofs.Server.Questions
import SymbolAtlas.Proofs.Run.Pipeline
import SymbolAtlas.Proofs.Run.Success
import SymbolAtlas.Proofs.Rpc.Moves
import SymbolAtlas.Proofs.Rpc.Loss
import SymbolAtlas.Proofs.Rpc.Matching
import SymbolAtlas.Proofs.Server.Loss
import SymbolAtlas.Proofs.Session.Loss
import SymbolAtlas.Proofs.Session.Refusal
import SymbolAtlas.Proofs.Session.Farewell
import SymbolAtlas.Proofs.Run.Teardown
import SymbolAtlas.Proofs.Session.Leave
import SymbolAtlas.Proofs.Settings.Faults
import SymbolAtlas.Proofs.Settings.Timeout
import SymbolAtlas.Proofs.Chunks.Attribution
import SymbolAtlas.Proofs.Chunks.Graph
import SymbolAtlas.Proofs.Symbols.Trees
import SymbolAtlas.Proofs.Chunks.Collection
import SymbolAtlas.Proofs.Symbols.Preorder
import SymbolAtlas.Proofs.Chunks.Signatures
import SymbolAtlas.Proofs.Chunks.Slices
import SymbolAtlas.Proofs.Symbols.AllOrNothing
import SymbolAtlas.Proofs.Settings.Effective
import SymbolAtlas.Proofs.Settings.Spellings
import SymbolAtlas.Proofs.Symbols.Hits
import SymbolAtlas.Proofs.Disk.Paths
import SymbolAtlas.Proofs.Disk.Resolved
import SymbolAtlas.Proofs.Disk.Addresses
import SymbolAtlas.Proofs.Session.Openings
import SymbolAtlas.Proofs.Settings.Targets
import SymbolAtlas.Proofs.Json.Indented
import SymbolAtlas.Proofs.Chunks.Output
import SymbolAtlas.Proofs.Run.Enumerations
