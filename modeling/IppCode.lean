import IppCode.Main
import IppCode.Proofs.Limit
import IppCode.Proofs.Forward
import IppCode.Proofs.RoundTrip
import IppCode.Proofs.Effects
import IppCode.Proofs.Control
import IppCode.Proofs.Isolation
import IppCode.Proofs.Agreement
import IppCode.Proofs.Assembled
import IppCode.Proofs.Padding
import IppCode.Proofs.Serialized
import IppCode.Proofs.Reordering
import IppCode.Proofs.Renumbering
import IppCode.Proofs.Causality
import IppCode.Proofs.Writes
import IppCode.Proofs.Silencing
import IppCode.Proofs.Data
import IppCode.Proofs.Accounting
import IppCode.Proofs.Globals
import IppCode.Proofs.Commands
import IppCode.Proofs.ExitCodes
import IppCode.Proofs.Precompiled
import IppCode.Proofs.Destinations
import IppCode.Proofs.Repetition
import IppCode.Proofs.Equality
import IppCode.Proofs.Arithmetic
import IppCode.Proofs.Characters
import IppCode.Proofs.Transfer
import IppCode.Proofs.Traversal
import IppCode.Proofs.Blame
import IppCode.Proofs.Promotion
import IppCode.Proofs.Grammar
import IppCode.Proofs.InputLines
import IppCode.Proofs.Literals
import IppCode.Proofs.Documents
import IppCode.Proofs.Layout
import IppCode.Proofs.Decoding
import IppCode.Proofs.Tables
