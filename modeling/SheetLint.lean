import SheetLint.Main
import SheetLint.Proofs.Place
import SheetLint.Proofs.Layout
import SheetLint.Proofs.ValueReading
import SheetLint.Proofs.SelectorReading
import SheetLint.Proofs.Bracing
import SheetLint.Proofs.Tiling
import SheetLint.Proofs.Reading
import SheetLint.Proofs.SheetLayout
import SheetLint.Proofs.Fidelity
import SheetLint.Proofs.Quotient
import SheetLint.Proofs.Findings
import SheetLint.Proofs.Pairing
import SheetLint.Proofs.Checks
import SheetLint.Proofs.Judging
import SheetLint.Proofs.Descent
import SheetLint.Proofs.Distinct
import SheetLint.Proofs.Enclosing
import SheetLint.Proofs.Blocks
import SheetLint.Proofs.Parentheses
import SheetLint.Proofs.Strings
import SheetLint.Proofs.CommentPass
import SheetLint.Proofs.QuotedAddress
import SheetLint.Proofs.Blanking
import SheetLint.Proofs.Rounded
import SheetLint.Proofs.Contrast
import SheetLint.Proofs.Running
import SheetLint.Proofs.Joining
import SheetLint.Proofs.StringReach
import SheetLint.Proofs.Starts
import SheetLint.Proofs.Registered
import SheetLint.Proofs.FaultPlace
import SheetLint.Proofs.SelectorList
import SheetLint.Proofs.Order
import SheetLint.Proofs.Recognised
import SheetLint.Proofs.Spelling
import SheetLint.Proofs.Rereading
import SheetLint.Proofs.Stamping
import SheetLint.Proofs.Gathering
import SheetLint.Proofs.Refusal
import SheetLint.Proofs.Levels
import SheetLint.Proofs.Registration
import SheetLint.Proofs.Persistence
import SheetLint.Proofs.Arrivals
import SheetLint.Proofs.Answers
import SheetLint.Proofs.HexLiteral
import SheetLint.Proofs.LastColors
import SheetLint.Proofs.Respelled
import SheetLint.Proofs.ColorSpelling
import SheetLint.Proofs.Channels
import SheetLint.Proofs.AddressPart
import SheetLint.Proofs.Undecodable
import SheetLint.Proofs.Encoded
import SheetLint.Proofs.SharedFlags
import SheetLint.Proofs.PropertyGroup
import SheetLint.Proofs.ColorSource
import SheetLint.Proofs.Path
import SheetLint.Proofs.Forward
