import AcmeClient.Settings.File
import AcmeClient.Yaml
import AcmeClient.Yaml.Node
import AcmeClient.Yaml.Token
import AcmeClient.Yaml.Scalar
import AcmeClient.Environment
import AcmeClient.Authority.Scripted
import AcmeClient.CertificateResource
import AcmeClient.Client
import AcmeClient.Surroundings
import AcmeClient.Authority
import AcmeClient.Settings
import AcmeClient.Revocation.Payload
import AcmeClient.Link
import AcmeClient.Time.RetryAfter
import AcmeClient.Time.Timestamp
import AcmeClient.Key.Reader
import AcmeClient.Chain
import AcmeClient.CertId
import AcmeClient.Problem
import AcmeClient.Log
import AcmeClient.Json.Reader
import AcmeClient.Json.Writer
import AcmeClient.Value.Display
import AcmeClient.Time.DateTime
import AcmeClient.Binary64
import AcmeClient.Hash.Sha1
import AcmeClient.Hash.Hmac
import AcmeClient.Hash.Shake
import AcmeClient.Base64
import AcmeClient.Text.Blank
import AcmeClient.Text.Digit
import AcmeClient.Text.Printable
import AcmeClient.Text.Utf8
import AcmeClient.Proofs.Client.Quiet
import AcmeClient.Proofs.Members
import AcmeClient.Proofs.Unwrapped
import AcmeClient.Proofs.Client.Posting
import AcmeClient.Proofs.Client.Draft
import AcmeClient.Proofs.Client.Step
import AcmeClient.Proofs.Client.Keeping
import AcmeClient.Proofs.Client.Nonce
import AcmeClient.Proofs.Client.Repetition
import AcmeClient.Proofs.Text.Utf8
import AcmeClient.Proofs.Base64
import AcmeClient.Proofs.Json.Numbers
import AcmeClient.Proofs.Json.RoundTrip
import AcmeClient.Proofs.Json.Sorted
import AcmeClient.Proofs.Json.Unambiguous
import AcmeClient.Proofs.Client.Binding
import AcmeClient.Proofs.Recording
import AcmeClient.Proofs.Pem
import AcmeClient.Proofs.Text.Ascii
import AcmeClient.Proofs.Chain.Blocks
import AcmeClient.Proofs.Chain.Octets
import AcmeClient.Proofs.Certificate
import AcmeClient.Proofs.Chain.Parsing
import AcmeClient.Proofs.Chain.RoundTrip
import AcmeClient.Proofs.CertificateResource.Once
import AcmeClient.Proofs.CertificateResource.Failures
import AcmeClient.Proofs.CertId
import AcmeClient.Proofs.RenewalInfo.Record
import AcmeClient.Proofs.Tracing
import AcmeClient.Proofs.RenewalInfo.Operations
import AcmeClient.Proofs.RenewalInfo.OfCertificate
import AcmeClient.Proofs.RenewalInfo.Replacing
import AcmeClient.Proofs.RenewalInfo.Decisions
import AcmeClient.Proofs.Agreement
import AcmeClient.Proofs.Revocation
import AcmeClient.Proofs.Client.Agreement
import AcmeClient.Proofs.Environment.Agreement
import AcmeClient.Proofs.Environment.Obtaining
import AcmeClient.Proofs.Environment.Revocation
import AcmeClient.Proofs.Environment.Sharing
import AcmeClient.Proofs.Client.Account
import AcmeClient.Proofs.Client.Directory
import AcmeClient.Proofs.Client.Footprint
import AcmeClient.Proofs.Environment.Footprint
import AcmeClient.Proofs.Chain.Outcomes
import AcmeClient.Proofs.Chain.Single
import AcmeClient.Proofs.Client.Content
import AcmeClient.Proofs.Client.Refusals
import AcmeClient.Proofs.CertId.Legible
import AcmeClient.Proofs.Time.Timestamp
import AcmeClient.Proofs.RenewalInfo.Retrying
import AcmeClient.Proofs.Text.Words
import AcmeClient.Proofs.Time.MailDate
import AcmeClient.Proofs.RenewalInfo.Proposal
import AcmeClient.Proofs.Link.Finding
import AcmeClient.Proofs.Link.Quoting
import AcmeClient.Proofs.Settings
import AcmeClient.Proofs.Problem
import AcmeClient.Proofs.Key.Jwk
import AcmeClient.Proofs.Base64.Url
import AcmeClient.Proofs.Pem.Layout
