import Lexing.CommandLine.FileTree
import Lexing.Json.Reader
import Lexing.Main
import Lexing.Proofs.Filling
import Lexing.Proofs.Lexeme
import Lexing.Settings.Json
import Lexing.Text.Utf8
import Lexing.Proofs.NextToken
import Lexing.Proofs.Delivery
import Lexing.Proofs.Pieces
import Lexing.Proofs.Tiling
import Lexing.Proofs.RoundTrip
import Lexing.Proofs.FirstFault
import Lexing.Proofs.LineColumn
import Lexing.Proofs.Calls
import Lexing.Proofs.Positions
import Lexing.Proofs.Shifting
import Lexing.Proofs.Suffix
import Lexing.Proofs.FixedBuffer
import Lexing.Proofs.Checked
import Lexing.Proofs.ExitStatus
import Lexing.Proofs.Bounds
import Lexing.Proofs.Draining
import Lexing.Proofs.Tracking
import Lexing.Proofs.Pointing
import Lexing.Proofs.Staging
import Lexing.Proofs.Logging
import Lexing.Proofs.Aborting
import Lexing.Proofs.Progress
import Lexing.Proofs.Lookahead
import Lexing.Proofs.Export
import Lexing.Proofs.Recovery
import Lexing.Proofs.Histories
import Lexing.Proofs.Numerals
import Lexing.Proofs.Arguments
import Lexing.Proofs.Traversal
import Lexing.Proofs.Normalizing
import Lexing.Proofs.HighWater
