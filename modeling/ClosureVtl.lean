import ClosureVtl.Config.Reading
import ClosureVtl.Config.Schema
import ClosureVtl.Mapping
import ClosureVtl.Target
import ClosureVtl.Proofs.Closure.Environment
import ClosureVtl.Proofs.Closure.Forest
import ClosureVtl.Proofs.Template.Execution
import ClosureVtl.Proofs.Render.AddressClash
import ClosureVtl.Proofs.Render.BlockBalance
import ClosureVtl.Proofs.Render.CallbackReturn
import ClosureVtl.Proofs.Render.GuardedOperands
import ClosureVtl.Proofs.Render.IntegrationLimit
import ClosureVtl.Proofs.Render.LiteralFragment
import ClosureVtl.Proofs.Render.LoopCount
import ClosureVtl.Proofs.Render.MappingReturn
import ClosureVtl.Proofs.Render.OperandOrder
import ClosureVtl.Proofs.Render.Parentheses
import ClosureVtl.Proofs.Render.PayloadPath
import ClosureVtl.Proofs.Render.TemporaryOrder
import ClosureVtl.Proofs.Closure.SourceOrder
import ClosureVtl.Proofs.Closure.Termination
import ClosureVtl.Proofs.Render.Levels
import ClosureVtl.Proofs.Closure.BodyForms
import ClosureVtl.Proofs.Closure.Subtree
import ClosureVtl.Proofs.Render.BodyForms
import ClosureVtl.Proofs.Render.CallCount
import ClosureVtl.Proofs.Render.Termination
import ClosureVtl.Proofs.Closure.Listings
import ClosureVtl.Proofs.Render.CallArguments
import ClosureVtl.Proofs.Render.ChainLines
import ClosureVtl.Proofs.Render.Destructuring
import ClosureVtl.Proofs.Closure.CallbackNames
import ClosureVtl.Proofs.Render.ExpressionStatements
import ClosureVtl.Proofs.Render.UpdateTargets
import ClosureVtl.Proofs.Render.Inlining
import ClosureVtl.Proofs.Render.Locality
import ClosureVtl.Proofs.Render.ReturnLines
import ClosureVtl.Proofs.Closure.PatternNames
import ClosureVtl.Proofs.Render.OperatorText
import ClosureVtl.Proofs.Render.StashedLocals
import ClosureVtl.Proofs.Render.InterpolatedPieces
import ClosureVtl.Proofs.Render.BuiltLiterals
import ClosureVtl.Proofs.Closure.ParameterUse
import ClosureVtl.Proofs.Render.CompositeValues
import ClosureVtl.Proofs.Render.NestedCalls
import ClosureVtl.Proofs.Render.UnreadParts
import ClosureVtl.Proofs.Render.AcceptedParts
import ClosureVtl.Proofs.Render.AcceptedKinds
import ClosureVtl.Proofs.Closure.SubtreeSearch
