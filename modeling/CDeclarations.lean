import CDeclarations.Main
import CDeclarations.Parser.Log
import CDeclarations.Proofs.Tree.Growth
import CDeclarations.Proofs.Parser.Placement
import CDeclarations.Proofs.Specifier.Sequence
import CDeclarations.Proofs.Grammar.Language
import CDeclarations.Proofs.Parser.Recognition
import CDeclarations.Proofs.Parser.Lossless
import CDeclarations.Proofs.Parser.View
import CDeclarations.Proofs.Tree.Comments
import CDeclarations.Proofs.Parser.Comments
import CDeclarations.Proofs.Parser.Alike
import CDeclarations.Proofs.Token.Seam
import CDeclarations.Proofs.Token.Down
import CDeclarations.Proofs.Tree.Graft
import CDeclarations.Proofs.Parser.Concatenation
import CDeclarations.Proofs.Token.Tiling
import CDeclarations.Proofs.Specifier.Categories
import CDeclarations.Proofs.Specifier.Records
import CDeclarations.Proofs.Specifier.WordOrder
import CDeclarations.Proofs.Parser.Pending
import CDeclarations.Proofs.Tree.PreOrder
import CDeclarations.Proofs.Parser.ErrorNode
import CDeclarations.Proofs.Parser.Appending
import CDeclarations.Proofs.Tree.Relabelled
import CDeclarations.Proofs.Tree.Unplaced
import CDeclarations.Proofs.Parser.Resumption
import CDeclarations.Proofs.Token.Printed
import CDeclarations.Proofs.Parser.Tagging
import CDeclarations.Proofs.Tree.Content
import CDeclarations.Proofs.Parser.Shape
import CDeclarations.Proofs.Tree.ReadingOrder
import CDeclarations.Proofs.Parser.Attaching
import CDeclarations.Proofs.Parser.ReadingOrder
import CDeclarations.Proofs.Text.LineEnds
import CDeclarations.Proofs.Token.DefineBody
import CDeclarations.Proofs.Token.LineEnds
import CDeclarations.Proofs.Parser.LineEnds
import CDeclarations.Proofs.Tree.Built
import CDeclarations.Proofs.Tree.Traversal
import CDeclarations.Proofs.Text.Quoted
import CDeclarations.Proofs.Tree.Outline
import CDeclarations.Proofs.Parser.Footprint
import CDeclarations.Proofs.Parser.Outline
import CDeclarations.Proofs.Parser.Guards
import CDeclarations.Proofs.Parser.Guarded
import CDeclarations.Proofs.Parser.Calls
import CDeclarations.Proofs.Token.Positions
import CDeclarations.Proofs.Grammar.Numeral
import CDeclarations.Proofs.Token.Number
import CDeclarations.Proofs.Token.Classes
import CDeclarations.Proofs.Tree.Lines
import CDeclarations.Proofs.CommandLine
import CDeclarations.Proofs.Token.LogicalLine
import CDeclarations.Proofs.Specifier.Verdicts
import CDeclarations.Proofs.Specifier.UnderWay
import CDeclarations.Proofs.Specifier.Refusals
import CDeclarations.Proofs.Parser.Slots
import CDeclarations.Proofs.Specifier.Contradictions
import CDeclarations.Proofs.Specifier.Replay
import CDeclarations.Proofs.Specifier.BaseType
import CDeclarations.Proofs.Token.NextLine
import CDeclarations.Proofs.Parser.FirstFailure
import CDeclarations.Proofs.Tree.Braces
import CDeclarations.Proofs.Parser.Braces
import CDeclarations.Proofs.Tree.Accepted
import CDeclarations.Proofs.Browser.Session
import CDeclarations.Proofs.Browser.Diagnostics
import CDeclarations.Proofs.Parser.ErrorLine
import CDeclarations.Proofs.Browser.FaultyLine
import CDeclarations.Proofs.Browser.TreePane
import CDeclarations.Proofs.Browser.Paging
import CDeclarations.Proofs.Options
import CDeclarations.Proofs.Browser.Highlight
