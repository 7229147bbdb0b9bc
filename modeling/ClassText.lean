import ClassText.ClassFile.Basic
import ClassText.ClassFile.Text
import ClassText.ClassFile.Wrap
import ClassText.Command.Arguments
import ClassText.Command.Files
import ClassText.Command.Path
import ClassText.Command.Run
import ClassText.Instruction.Basic
import ClassText.Instruction.Text
import ClassText.Line.MemberRef
import ClassText.Line.Mnemonic
import ClassText.Line.Parser
import ClassText.Line.SyntaxError
import ClassText.Line.Token
import ClassText.Listing.Basic
import ClassText.Listing.Report
import ClassText.Main
import ClassText.Number.Binary
import ClassText.Number.Decimal
import ClassText.Number.Digits
import ClassText.Number.FloatLiteral
import ClassText.Number.IntLiteral
import ClassText.Number.Layout
import ClassText.Pool.Basic
import ClassText.Pool.Text
import ClassText.Text.Basic
import ClassText.Text.Blank
import ClassText.Text.Escape
import ClassText.Text.Extender
import ClassText.Text.Lines
import ClassText.Text.Quoted
import ClassText.Text.Unprintable
import ClassText.Type.Basic
import ClassText.Type.Descriptor
import ClassText.Type.Parser
import ClassText.Type.Prefix
import ClassText.Type.SourceForm
import ClassText.Proofs.ClassFile.CodeLines
import ClassText.Proofs.ClassFile.Resolved
import ClassText.Proofs.Command.Files
import ClassText.Proofs.Command.Merged
import ClassText.Proofs.Command.Output
import ClassText.Proofs.Command.Separate
import ClassText.Proofs.Line.Fused
import ClassText.Proofs.Line.Readable
import ClassText.Proofs.Line.RoundTrip
import ClassText.Proofs.Listing.Append
import ClassText.Proofs.Listing.RoundTrip
import ClassText.Proofs.Number.FloatLiteral
import ClassText.Proofs.Number.FloatText
import ClassText.Proofs.Number.IntLiteral
import ClassText.Proofs.Number.Integer
import ClassText.Proofs.Number.Nearest
import ClassText.Proofs.Pool.Components
import ClassText.Proofs.Pool.Contents
import ClassText.Proofs.Pool.Invariant
import ClassText.Proofs.Pool.Listing
import ClassText.Proofs.Pool.References
import ClassText.Proofs.Text.Printable
import ClassText.Proofs.Type.Descriptor
import ClassText.Proofs.Type.Grammar
import ClassText.Proofs.Type.Reread
import ClassText.Proofs.Type.Signature
import ClassText.Proofs.Number.ConstantText
import ClassText.Proofs.Pool.Unambiguous
import ClassText.Proofs.Line.Partition
import ClassText.Proofs.Line.Respaced
import ClassText.Proofs.Text.Cut
import ClassText.Proofs.Type.Slices
import ClassText.Proofs.Line.Blame
import ClassText.Proofs.Line.Slices
import ClassText.Proofs.ClassFile.Locals
import ClassText.Proofs.Listing.Marks
import ClassText.Proofs.Line.StringConstant
import ClassText.Proofs.Instruction.Constants
import ClassText.Proofs.Number.TypeLetter
