import Liquid.Data.HostData
import Liquid.Fields.Order
import Liquid.Loader.Assets
import Liquid.Loader.Directory
import Liquid.Loader.Memory
import Liquid.Render.Node
import Liquid.Proofs.Context.Memo
import Liquid.Proofs.Render.Quiet
import Liquid.Proofs.Render.Step
import Liquid.Proofs.Render.Simulation
import Liquid.Proofs.Render.Containment
import Liquid.Proofs.Render.Scopes
import Liquid.Proofs.Render.Policy
import Liquid.Proofs.Token.Print
import Liquid.Proofs.Condition.Print
import Liquid.Proofs.Node.Grammar
import Liquid.Proofs.Render.Depth
import Liquid.Proofs.Context.Plain
import Liquid.Proofs.Context.Produced
import Liquid.Proofs.Environment.Coherence
import Liquid.Proofs.Context.Alike
import Liquid.Proofs.Context.Brackets
import Liquid.Proofs.Render.Purity
import Liquid.Proofs.Render.Trace
import Liquid.Proofs.Render.Passes
import Liquid.Proofs.Render.Collection
import Liquid.Proofs.Render.Pagination
import Liquid.Proofs.Markup.CycleKey
import Liquid.Proofs.Render.Rotation
import Liquid.Proofs.Render.Program
import Liquid.Proofs.Render.Assignment
import Liquid.Proofs.Render.Case
import Liquid.Proofs.Data.Agreement
import Liquid.Proofs.Render.Recovery
import Liquid.Proofs.Render.Window
import Liquid.Proofs.Condition.Values
import Liquid.Proofs.Render.QuotedCycle
import Liquid.Proofs.Condition.Join
import Liquid.Proofs.Render.Inclusion
import Liquid.Proofs.Context.Slots
import Liquid.Proofs.Expr.Literal
import Liquid.Proofs.Markup.Output
import Liquid.Proofs.Markup.Include
import Liquid.Proofs.Data.Keys
import Liquid.Proofs.Value.Comparison
import Liquid.Proofs.Render.Repeats
import Liquid.Proofs.Files.Descent
import Liquid.Proofs.Loader.Confinement
