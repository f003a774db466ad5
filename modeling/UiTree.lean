import UiTree.Decimal
import UiTree.Describe
import UiTree.Dict
import UiTree.Element
import UiTree.Engine
import UiTree.Error
import UiTree.Journal
import UiTree.Options
import UiTree.Options.Reader
import UiTree.Options.Summary
import UiTree.Proofs.Append
import UiTree.Proofs.Binding
import UiTree.Proofs.Blueprint
import UiTree.Proofs.Blueprint.Closing
import UiTree.Proofs.Blueprint.Nearest
import UiTree.Proofs.Component
import UiTree.Proofs.Component.Failure
import UiTree.Proofs.Component.Methods
import UiTree.Proofs.Containment
import UiTree.Proofs.Course
import UiTree.Proofs.Course.Calls
import UiTree.Proofs.Course.Turns
import UiTree.Proofs.Create
import UiTree.Proofs.Descent
import UiTree.Proofs.Dict
import UiTree.Proofs.Dict.History
import UiTree.Proofs.EventKeys
import UiTree.Proofs.Forest
import UiTree.Proofs.Host
import UiTree.Proofs.Host.Commute
import UiTree.Proofs.Host.Effect
import UiTree.Proofs.Host.Entries
import UiTree.Proofs.Host.Outcome
import UiTree.Proofs.InsertionOrder
import UiTree.Proofs.Markup
import UiTree.Proofs.Markup.Decode
import UiTree.Proofs.Nest
import UiTree.Proofs.Notices.Collect
import UiTree.Proofs.Notices.Conservation
import UiTree.Proofs.Notices.Count
import UiTree.Proofs.Notices.Move
import UiTree.Proofs.Notices.Order
import UiTree.Proofs.Notices.OwnNode
import UiTree.Proofs.Notices.Stay
import UiTree.Proofs.Options.Object
import UiTree.Proofs.Options.RoundTrip
import UiTree.Proofs.Propagation
import UiTree.Proofs.Recording
import UiTree.Proofs.Regroup
import UiTree.Proofs.Render
import UiTree.Proofs.Scene.Growth
import UiTree.Proofs.Scene.Links
import UiTree.Proofs.Scene.Refs
import UiTree.Proofs.Scene.Settle
import UiTree.Proofs.Script.Eval
import UiTree.Proofs.Script.Exec
import UiTree.Proofs.Script.Interpreter
import UiTree.Proofs.Script.Known
import UiTree.Proofs.Script.Sound
import UiTree.Proofs.Text.Escape
import UiTree.Proofs.TextContent
import UiTree.Proofs.Tree.AppendAll
import UiTree.Proofs.Tree.Lineage
import UiTree.Proofs.Tree.Links
import UiTree.Proofs.Tree.Preorder
import UiTree.Proofs.Tree.Rows
import UiTree.Proofs.Tree.WellFormed
import UiTree.Proofs.TreeInvariant
import UiTree.Scene
import UiTree.Script.Interpreter
import UiTree.Text
import UiTree.Tree
import UiTree.Value
import UiTree.World
