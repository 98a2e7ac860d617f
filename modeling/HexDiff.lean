import HexDiff.Main
import HexDiff.Proofs.Comparer.Counting
import HexDiff.Proofs.Comparer.Recovery
import HexDiff.Proofs.Comparer.Failure
import HexDiff.Proofs.Limits
import HexDiff.Proofs.Comparer.Reuse
import HexDiff.Proofs.Files.Comparison
import HexDiff.Proofs.Base40.Codecs
import HexDiff.Proofs.Dump.SameColumns
import HexDiff.Proofs.Files.Refusals
import HexDiff.Proofs.Files.Feedback
import HexDiff.Proofs.Files.Endless
import HexDiff.Proofs.CommandLine.Overwriting
import HexDiff.Proofs.Brackets
import HexDiff.Proofs.Dump.Range
import HexDiff.Proofs.HexBytes
import HexDiff.Proofs.HexOffsets
import HexDiff.Proofs.BlockReads
import HexDiff.Proofs.Base40.Encoding
import HexDiff.Proofs.Base40.Appending
import HexDiff.Proofs.Dump.OverlayTexts
import HexDiff.Proofs.PrintedBytes
import HexDiff.Proofs.Comparer.Ending
import HexDiff.Proofs.Comparer.Safety
import HexDiff.Proofs.Comparer.Bounds
