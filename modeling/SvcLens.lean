import SvcLens.Text.Blank
import SvcLens.Text.Digit
import SvcLens.Text.Printable
import SvcLens.Text.Upper
import SvcLens.Text.Lines
import SvcLens.Text.Loose
import SvcLens.Text.Quoted
import SvcLens.Text.Utf8
import SvcLens.Numeral
import SvcLens.Numeral.Message
import SvcLens.Decimal.Binary64
import SvcLens.Decimal.Shortest
import SvcLens.Json
import SvcLens.Json.Reader
import SvcLens.IntMap
import SvcLens.Token
import SvcLens.Immediate
import SvcLens.Register
import SvcLens.Syscall
import SvcLens.Syscall.Linux
import SvcLens.Syscall.TableFile
import SvcLens.Diagnostic
import SvcLens.Hint
import SvcLens.Instruction
import SvcLens.Trace
import SvcLens.Analysis
import SvcLens.Listing
import SvcLens.Inlay
import SvcLens.Completion
import SvcLens.Document
import SvcLens.Command.Options
import SvcLens.Command.Files
import SvcLens.Command.Directory
import SvcLens.Command.Run
import SvcLens.Main
import SvcLens.Proofs.LastAssignment
import SvcLens.Proofs.Reading
import SvcLens.Proofs.Pass
import SvcLens.Proofs.Meaning
import SvcLens.Proofs.Grammar
import SvcLens.Proofs.Report
import SvcLens.Proofs.Lines
import SvcLens.Proofs.Trailing
import SvcLens.Proofs.Placement
import SvcLens.Proofs.Reanalysis
import SvcLens.Proofs.Digits
import SvcLens.Proofs.Spelling
import SvcLens.Proofs.Oversize
import SvcLens.Proofs.Comment
import SvcLens.Proofs.Extension
import SvcLens.Proofs.Anchor
import SvcLens.Proofs.Delivery
import SvcLens.Proofs.Destination
import SvcLens.Proofs.Endings
import SvcLens.Proofs.Members
import SvcLens.Proofs.Description
import SvcLens.Proofs.Acceptance
import SvcLens.Proofs.Forward
import SvcLens.Proofs.Liveness
import SvcLens.Proofs.Relocation
import SvcLens.Proofs.Spacing
import SvcLens.Proofs.Candidates
import SvcLens.Proofs.StandardInput
import SvcLens.Proofs.History
import SvcLens.Proofs.Inlays
import SvcLens.Proofs.Literal
import SvcLens.Proofs.Readers
import SvcLens.Proofs.Operand
import SvcLens.Proofs.Naming
import SvcLens.Proofs.Layers
import SvcLens.Proofs.Respelling
import SvcLens.Proofs.Concatenation
import SvcLens.Proofs.Cursor
import SvcLens.Proofs.BlankLines
