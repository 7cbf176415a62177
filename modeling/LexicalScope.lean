import LexicalScope.Main
import LexicalScope.Proofs.Balance
import LexicalScope.Proofs.Lexical
import LexicalScope.Proofs.Descent
import LexicalScope.Proofs.Malformed
import LexicalScope.Proofs.Persistence
import LexicalScope.Proofs.RoundTrip
import LexicalScope.Proofs.Caching
import LexicalScope.Proofs.Storing
import LexicalScope.Proofs.Metadata
import LexicalScope.Proofs.Rearrangement
import LexicalScope.Proofs.Replay
import LexicalScope.Proofs.Renaming
import LexicalScope.Proofs.Bindings
import LexicalScope.Proofs.Outcomes
import LexicalScope.Proofs.Obstacles
import LexicalScope.Proofs.Idempotence
import LexicalScope.Proofs.Effects
import LexicalScope.Proofs.TextReport
import LexicalScope.Proofs.Traversal
import LexicalScope.Proofs.Rolls
import LexicalScope.Proofs.Leaves
import LexicalScope.Proofs.Notices
import LexicalScope.Proofs.OptionOrder
