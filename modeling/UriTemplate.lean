import UriTemplate.Interface
import UriTemplate.Extraction.Session
import UriTemplate.Proofs.Fault
import UriTemplate.Proofs.Entries
import UriTemplate.Proofs.Binding
import UriTemplate.Proofs.Datum.Environment
import UriTemplate.Proofs.Text.Percent
import UriTemplate.Proofs.Operator.Alphabet
import UriTemplate.Proofs.Operator.Encoding
import UriTemplate.Proofs.Operator.Cutting
import UriTemplate.Proofs.Expression.Printing
import UriTemplate.Proofs.Template.Canonical
import UriTemplate.Proofs.Template.Overlong
import UriTemplate.Proofs.Template.Printing
import UriTemplate.Proofs.Template.Concatenation
import UriTemplate.Proofs.Expansion.Basic
import UriTemplate.Proofs.Expansion.Inert
import UriTemplate.Proofs.Expansion.Assignments
import UriTemplate.Proofs.Expansion.Exploding
import UriTemplate.Proofs.Standard.Algorithm
import UriTemplate.Proofs.Standard.Grammar
import UriTemplate.Proofs.Standard.Conformance
import UriTemplate.Proofs.Pattern.Source
import UriTemplate.Proofs.Extraction.Reading
import UriTemplate.Proofs.Extraction.Recoverable
import UriTemplate.Proofs.Extraction.RoundTrip
import UriTemplate.Proofs.Extraction.Stability
import UriTemplate.Proofs.Extraction.Acceptance
import UriTemplate.Proofs.Extraction.Cache
import UriTemplate.Proofs.Extraction.Transparency
import UriTemplate.Proofs.Extraction.Recency
import UriTemplate.Proofs.Extraction.Log
import UriTemplate.Proofs.Interface.Totality
import UriTemplate.Proofs.Interface.Refusal
import UriTemplate.Proofs.Interface.Effective
import UriTemplate.Proofs.Text.Json
import UriTemplate.Proofs.Text.Quoted
import UriTemplate.Proofs.Template.Validation
import UriTemplate.Proofs.Expansion.Sequence
import UriTemplate.Proofs.Expansion.Splitting
import UriTemplate.Proofs.Extraction.Messages
import UriTemplate.Proofs.Extraction.Decoding
