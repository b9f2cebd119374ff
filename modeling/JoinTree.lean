import JoinTree.FilterSteps
import JoinTree.Interchange
import JoinTree.Resolution
import JoinTree.Settings.Document
import JoinTree.Tree.Edit
import JoinTree.Tree.OfQuery
import JoinTree.Proofs.Outcome
import JoinTree.Proofs.Building
import JoinTree.Proofs.WellFormed
import JoinTree.Proofs.Numeral
import JoinTree.Proofs.Rebuilding
import JoinTree.Proofs.Scanning
import JoinTree.Proofs.Spelling
import JoinTree.Proofs.PlainReading
import JoinTree.Proofs.Precedence
import JoinTree.Proofs.Binding
import JoinTree.Proofs.Rendering
import JoinTree.Proofs.ReadBack
import JoinTree.Proofs.WordRemoval
import JoinTree.Proofs.JoinWords
import JoinTree.Proofs.JoinReading
import JoinTree.Proofs.ClauseReading
import JoinTree.Proofs.Resolving
import JoinTree.Proofs.Naming
import JoinTree.Proofs.Ambiguity
import JoinTree.Proofs.Located
import JoinTree.Proofs.InPlace
import JoinTree.Proofs.Showing
import JoinTree.Proofs.Recording
import JoinTree.Proofs.Unambiguous
import JoinTree.Proofs.NamedText
import JoinTree.Proofs.JoinChain
import JoinTree.Proofs.PasteWords
import JoinTree.Proofs.NameReading
import JoinTree.Proofs.ChainReading
import JoinTree.Proofs.TreeListing
import JoinTree.Proofs.Rereading
import JoinTree.Proofs.TreeEquality
import JoinTree.Proofs.TreeHash
import JoinTree.Proofs.Guarding
import JoinTree.Proofs.ScopeSoundness
import JoinTree.Proofs.Replacement
import JoinTree.Proofs.ReadingOrder
import JoinTree.Proofs.StringText
import JoinTree.Proofs.Lookahead
import JoinTree.Proofs.Gaps
import JoinTree.Proofs.Exchange
import JoinTree.Proofs.Around
import JoinTree.Proofs.QualifiedName
import JoinTree.Proofs.Flattening
import JoinTree.Proofs.NameQuoting
import JoinTree.Proofs.Wholeness
import JoinTree.Proofs.WordPlaces
import JoinTree.Proofs.QuotedNames
import JoinTree.Proofs.QuotedTexts
import JoinTree.Proofs.Assigning
import JoinTree.Proofs.MatchCondition
import JoinTree.Proofs.Editing
import JoinTree.Proofs.Layout
import JoinTree.Proofs.IntegerLiteral
import JoinTree.Proofs.Sharing
import JoinTree.Proofs.ByteOffset
import JoinTree.Proofs.ErrorPlace
