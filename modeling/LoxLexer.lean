import LoxLexer.Main
import LoxLexer.File.Directory
import LoxLexer.Proofs.Cursor.Run
import LoxLexer.Proofs.Scan.LongestNumber
import LoxLexer.Proofs.Scan.Concatenation
import LoxLexer.Proofs.Command.PromptRun
import LoxLexer.Proofs.Session.Deliveries
import LoxLexer.Proofs.Command.Listing
import LoxLexer.Proofs.Config.RoundTrip
import LoxLexer.Proofs.Command.Colour
import LoxLexer.Proofs.Command.FullOutput
import LoxLexer.Proofs.Scan.Comments
import LoxLexer.Proofs.Scan.LineEnds
import LoxLexer.Proofs.Scan.NumberValues
import LoxLexer.Proofs.Scan.FinalNewline
import LoxLexer.Proofs.Token.Json
import LoxLexer.Proofs.Token.Literals
import LoxLexer.Proofs.Diagnostic.FlatTemplates
import LoxLexer.Proofs.Diagnostic.StableOrder
import LoxLexer.Proofs.Command.Settings
import LoxLexer.Proofs.Config.FormatNames
