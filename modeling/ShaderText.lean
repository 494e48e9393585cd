import ShaderText.Decimal
import ShaderText.Document
import ShaderText.Main
import ShaderText.Toml.Date
import ShaderText.Proofs.Document.Locality
import ShaderText.Proofs.Document.Reindent
import ShaderText.Proofs.Lexing.Bounds
import ShaderText.Proofs.Lexing.Columns
import ShaderText.Proofs.Lexing.CommentStarts
import ShaderText.Proofs.Lexing.Comments
import ShaderText.Proofs.Lexing.Directives
import ShaderText.Proofs.Lexing.Dispatch
import ShaderText.Proofs.Lexing.Groups
import ShaderText.Proofs.Lexing.Invisible
import ShaderText.Proofs.Lexing.Lexeme
import ShaderText.Proofs.Lexing.Moved
import ShaderText.Proofs.Lexing.OpenComments
import ShaderText.Proofs.Lexing.Openers
import ShaderText.Proofs.Lexing.Reachable
import ShaderText.Proofs.Lexing.Seen
import ShaderText.Proofs.Lexing.Signals
import ShaderText.Proofs.Lexing.Spacing
import ShaderText.Proofs.Lexing.Strings
import ShaderText.Proofs.Lexing.Tiling
import ShaderText.Proofs.Literal.Comment
import ShaderText.Proofs.Literal.String
import ShaderText.Proofs.Nesting.Groups
import ShaderText.Proofs.Nesting.Matching
import ShaderText.Proofs.Nesting.Statements
import ShaderText.Proofs.Reindent.Canonical
import ShaderText.Proofs.Reindent.Preservation
import ShaderText.Proofs.Reindent.Program
import ShaderText.Proofs.Settings.Mode
import ShaderText.Proofs.Cursor.Offsets
import ShaderText.Proofs.Cursor.Moves
