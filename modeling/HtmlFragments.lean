import HtmlFragments.Main
import HtmlFragments.Proofs.CommandLine.Interleaving
import HtmlFragments.Proofs.Document.Advance
import HtmlFragments.Proofs.Document.Concatenation
import HtmlFragments.Proofs.Document.NumericReferences
import HtmlFragments.Proofs.Document.Pairing
import HtmlFragments.Proofs.Document.RawElement
import HtmlFragments.Proofs.Document.Rereading
import HtmlFragments.Proofs.Document.ValueContexts
import HtmlFragments.Proofs.Inputs.Disk
import HtmlFragments.Proofs.Markup.Balance
import HtmlFragments.Proofs.Run.Output
import HtmlFragments.Proofs.Run.Verbosity
import HtmlFragments.Proofs.Selector.Alternatives
import HtmlFragments.Proofs.Selector.Descendants
import HtmlFragments.Proofs.Selector.Naming
import HtmlFragments.Proofs.Selector.Regrouping
import HtmlFragments.Proofs.Selector.Scope
import HtmlFragments.Proofs.Selector.Skeleton
import HtmlFragments.Proofs.Selector.Viability
import HtmlFragments.Proofs.Text.Location
