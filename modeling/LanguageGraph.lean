import LanguageGraph.Config.Basic
import LanguageGraph.Config.Codec
import LanguageGraph.Config.Document
import LanguageGraph.Controller.Basic
import LanguageGraph.Controller.Codec
import LanguageGraph.Controller.Event
import LanguageGraph.Controller.History
import LanguageGraph.Controller.Replay
import LanguageGraph.Controller.Request
import LanguageGraph.Edge.Codec
import LanguageGraph.Edge.Map
import LanguageGraph.Edge.Occurrence
import LanguageGraph.Edge.Stamp
import LanguageGraph.Edge.Type
import LanguageGraph.Element.Basic
import LanguageGraph.Element.Codec
import LanguageGraph.Element.Id
import LanguageGraph.Element.Kind
import LanguageGraph.Json.Pointer
import LanguageGraph.Json.Reader
import LanguageGraph.Json.Record
import LanguageGraph.Json.Value
import LanguageGraph.Json.Writer
import LanguageGraph.Main
import LanguageGraph.Multimap
import LanguageGraph.Operation.Basic
import LanguageGraph.Operation.Codec
import LanguageGraph.Operation.Commit
import LanguageGraph.Operation.Validation
import LanguageGraph.Proofs.Multimap
import LanguageGraph.Proofs.Occurrence
import LanguageGraph.Proofs.Store.Growth
import LanguageGraph.Proofs.Store.Invariant
import LanguageGraph.Proofs.Store.Slot
import LanguageGraph.Refusal
import LanguageGraph.Report
import LanguageGraph.StandardLibrary
import LanguageGraph.Store.Basic
import LanguageGraph.Store.Equality
import LanguageGraph.Store.Growth
import LanguageGraph.Store.Removal
import LanguageGraph.Store.Step
import LanguageGraph.Text.Blank
import LanguageGraph.Text.Digits
import LanguageGraph.Text.GraphemeExtend
import LanguageGraph.Text.Quoted
import LanguageGraph.Text.Ranges
import LanguageGraph.Text.Unprintable
import LanguageGraph.Time.Date
import LanguageGraph.Time.Text
import LanguageGraph.Time.Timestamp
import LanguageGraph.Yaml.Cursor
import LanguageGraph.Yaml.Node
import LanguageGraph.Yaml.Scalar
import LanguageGraph.Yaml.Token
import LanguageGraph.Proofs.Store.Unlink
import LanguageGraph.Proofs.Store.Detach
import LanguageGraph.Proofs.Store.Contents
import LanguageGraph.Proofs.Store.Indices
import LanguageGraph.Proofs.Operation.Commit
import LanguageGraph.Proofs.Controller.Run
import LanguageGraph.Proofs.Controller.History
import LanguageGraph.Proofs.Controller.Replay
import LanguageGraph.Proofs.Store.Later
import LanguageGraph.Proofs.Store.Thinning
import LanguageGraph.Proofs.Operation.Thinning
import LanguageGraph.Proofs.Store.Stripping
import LanguageGraph.Proofs.Controller.Undo
import LanguageGraph.Proofs.Controller.Rerun
import LanguageGraph.Proofs.Store.Referrers
import LanguageGraph.Proofs.Store.Root
import LanguageGraph.Proofs.Store.Extension
import LanguageGraph.Proofs.Store.Reduction
import LanguageGraph.Proofs.Operation.Effect
import LanguageGraph.Proofs.Controller.Provenance
import LanguageGraph.Proofs.Store.Dependents
import LanguageGraph.Proofs.Controller.Compensation
import LanguageGraph.Proofs.Operation.Reversal
import LanguageGraph.Proofs.Controller.Reversal
import LanguageGraph.Proofs.Controller.Echo
import LanguageGraph.Proofs.Controller.Reliving
import LanguageGraph.Proofs.Store.Stamps
import LanguageGraph.Proofs.Controller.Log
import LanguageGraph.Proofs.Controller.Rooting
import LanguageGraph.Proofs.Controller.Introduction
import LanguageGraph.Proofs.Store.Forest
import LanguageGraph.Proofs.Store.Cascade
import LanguageGraph.Proofs.Controller.SingleTree
import LanguageGraph.Proofs.Store.Alike
import LanguageGraph.Proofs.Operation.Congruence
import LanguageGraph.Proofs.Operation.Independence
import LanguageGraph.Proofs.Controller.Independence
import LanguageGraph.Proofs.Store.Removal
import LanguageGraph.Proofs.Controller.Sharing
import LanguageGraph.Proofs.Text.Digits
import LanguageGraph.Proofs.Element.Id
import LanguageGraph.Proofs.Time.Text
import LanguageGraph.Proofs.Json.Record
import LanguageGraph.Proofs.Element.Codec
import LanguageGraph.Proofs.Operation.Codec
import LanguageGraph.Proofs.Controller.Codec
import LanguageGraph.Proofs.Json.Scalar
import LanguageGraph.Proofs.Json.Text
import LanguageGraph.Proofs.Operation.Unlinking
import LanguageGraph.Proofs.Operation.EdgeRemoval
import LanguageGraph.Proofs.Controller.Progress
