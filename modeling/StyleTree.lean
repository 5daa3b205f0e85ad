import StyleTree.Assoc
import StyleTree.Command.Arguments
import StyleTree.Command.Disk
import StyleTree.Command.Run
import StyleTree.Decimal
import StyleTree.Double
import StyleTree.Double.Text
import StyleTree.Emission
import StyleTree.Emission.Piece
import StyleTree.Emission.Routine
import StyleTree.Generator
import StyleTree.Json.Number
import StyleTree.Json.Reader
import StyleTree.Json.Token
import StyleTree.Json.Tree
import StyleTree.Kind
import StyleTree.Main
import StyleTree.NodeType
import StyleTree.Printer
import StyleTree.Proofs.Body
import StyleTree.Proofs.Brackets
import StyleTree.Proofs.Building
import StyleTree.Proofs.CommandLine
import StyleTree.Proofs.Comments
import StyleTree.Proofs.Decoding
import StyleTree.Proofs.Effect
import StyleTree.Proofs.ElseChains
import StyleTree.Proofs.Equality
import StyleTree.Proofs.Faithful
import StyleTree.Proofs.Files
import StyleTree.Proofs.Format
import StyleTree.Proofs.FrontEnds
import StyleTree.Proofs.Histories
import StyleTree.Proofs.Inline
import StyleTree.Proofs.Layout
import StyleTree.Proofs.Leaves
import StyleTree.Proofs.Literals
import StyleTree.Proofs.MemberOrder
import StyleTree.Proofs.Nesting
import StyleTree.Proofs.NormalForm
import StyleTree.Proofs.Numerals
import StyleTree.Proofs.Offence
import StyleTree.Proofs.Outline
import StyleTree.Proofs.Printer
import StyleTree.Proofs.Quoting
import StyleTree.Proofs.Requirements
import StyleTree.Proofs.Rounding
import StyleTree.Proofs.Routine
import StyleTree.Proofs.Runs
import StyleTree.Proofs.Shapes
import StyleTree.Proofs.Shortest
import StyleTree.Proofs.Sigils
import StyleTree.Proofs.Template
import StyleTree.Proofs.Tokens
import StyleTree.Proofs.Validity
import StyleTree.Proofs.Words
import StyleTree.Schema
import StyleTree.Script
import StyleTree.Shape
import StyleTree.Text
import StyleTree.Text.Visible
import StyleTree.Value
