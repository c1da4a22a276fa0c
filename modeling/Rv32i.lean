import Rv32i.Text.Glyph
import Rv32i.Text.Blank
import Rv32i.Text.Lowercase
import Rv32i.Text.Printable
import Rv32i.Text.Numeral
import Rv32i.Text.Quoted
import Rv32i.Instruction.Format
import Rv32i.Fault
import Rv32i.Register
import Rv32i.Instruction.Table
import Rv32i.Word.Layout
import Rv32i.SymbolTable
import Rv32i.Operand
import Rv32i.Word.Fields
import Rv32i.Encoding
import Rv32i.Disassembly
import Rv32i.Source.Line
import Rv32i.Program
import Rv32i.Rendering
import Rv32i.Command.Execution
import Rv32i.Command.Arguments
import Rv32i.Command.Files
import Rv32i.Main
import Rv32i.Proofs.Word.Layout
import Rv32i.Proofs.Encoding
import Rv32i.Proofs.Word.Fields
import Rv32i.Proofs.Text.Glyph
import Rv32i.Proofs.Text.Blank
import Rv32i.Proofs.Text.Spacing
import Rv32i.Proofs.Text.Rows
import Rv32i.Proofs.Source.Line
import Rv32i.Proofs.Source.Fields
import Rv32i.Proofs.Source.Written
import Rv32i.Proofs.Operand
import Rv32i.Proofs.Literal
import Rv32i.Proofs.Rules
import Rv32i.Proofs.Decoding
import Rv32i.Proofs.Injectivity
import Rv32i.Proofs.Disassembly
import Rv32i.Proofs.Rendering
import Rv32i.Proofs.Reference
import Rv32i.Proofs.Simulation
import Rv32i.Proofs.Program.Survey
import Rv32i.Proofs.Program.Emission
import Rv32i.Proofs.Program.Simulation
import Rv32i.Proofs.Program.Specification
import Rv32i.Proofs.Program.Constants
import Rv32i.Proofs.Program.Reassembly
import Rv32i.Proofs.Program.Faults
import Rv32i.Proofs.Program.Transfers
import Rv32i.Proofs.Program.Concatenation
import Rv32i.Proofs.Program.Renaming
import Rv32i.Proofs.Program.Layout
import Rv32i.Proofs.Memory
import Rv32i.Proofs.Word.Numbers
import Rv32i.Proofs.Program.LineEnds
import Rv32i.Proofs.Source.Canonical
import Rv32i.Proofs.Padding
import Rv32i.Proofs.Program.LabelOrder
import Rv32i.Proofs.Source.Cuts
import Rv32i.Proofs.Command.Execution
import Rv32i.Proofs.Command.Files
import Rv32i.Proofs.Command.WholeOrNothing
