import GitTransport.Http.Script
import GitTransport.Main
import GitTransport.Proofs.Classifier.MediaType
import GitTransport.Proofs.CommandLine.Output
import GitTransport.Proofs.CommandLine.Secrets
import GitTransport.Proofs.Http.Origin
import GitTransport.Proofs.Http.Secrets
import GitTransport.Proofs.MessageLog.EmptyTexts
import GitTransport.Proofs.MessageLog.Headings
import GitTransport.Proofs.MessageLog.Spellings
import GitTransport.Proofs.MessageLog.Summary
import GitTransport.Proofs.Proxy.Addressing
import GitTransport.Proofs.Proxy.Freshness
import GitTransport.Proofs.Proxy.Invalidation
import GitTransport.Proofs.Proxy.Moving
import GitTransport.Proofs.Proxy.Registered
import GitTransport.Proofs.Service.Cloned
import GitTransport.Proofs.Service.Completeness
import GitTransport.Proofs.Terminal.Style
import GitTransport.Proofs.Configuration.Normal
import GitTransport.Proofs.Configuration.Reading
import GitTransport.Proofs.Proxy.Malformed
import GitTransport.Proofs.Repository.Transition
import GitTransport.Proofs.Proxy.Transitions
import GitTransport.Proofs.CommandLine.History
import GitTransport.Proofs.CommandLine.Listing
import GitTransport.Proofs.Terminal.Table
import GitTransport.Proofs.Timeout
import GitTransport.Proofs.CommandLine.PackageName
import GitTransport.Proofs.CommandLine.Switch
import GitTransport.Proofs.Http.Query
import GitTransport.Proofs.Settings
