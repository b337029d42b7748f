import SequencerHub.Client.Admin
import SequencerHub.Client.Handle
import SequencerHub.Backend.Scripted
import SequencerHub.Config.Document
import SequencerHub.Config.Load
import SequencerHub.Log.Setup
import SequencerHub.Main
import SequencerHub.Proofs.AuditReplay
import SequencerHub.Proofs.Clearance
import SequencerHub.Proofs.ClientView
import SequencerHub.Proofs.Configurations
import SequencerHub.Proofs.Containment
import SequencerHub.Proofs.Counterparts
import SequencerHub.Proofs.Creation
import SequencerHub.Proofs.Custody
import SequencerHub.Proofs.Departures
import SequencerHub.Proofs.Directories
import SequencerHub.Proofs.Errands
import SequencerHub.Proofs.Exchange
import SequencerHub.Proofs.Finality
import SequencerHub.Proofs.Forms
import SequencerHub.Proofs.Grammar
import SequencerHub.Proofs.HomeDir
import SequencerHub.Proofs.Hosting
import SequencerHub.Proofs.HubCustody
import SequencerHub.Proofs.IdText
import SequencerHub.Proofs.Isolation
import SequencerHub.Proofs.JsonText
import SequencerHub.Proofs.Lifecycle
import SequencerHub.Proofs.Linearization
import SequencerHub.Proofs.Loading
import SequencerHub.Proofs.LogAgreement
import SequencerHub.Proofs.LogFiles
import SequencerHub.Proofs.LogFrame
import SequencerHub.Proofs.LogLevels
import SequencerHub.Proofs.LogLimits
import SequencerHub.Proofs.Marks
import SequencerHub.Proofs.Nesting
import SequencerHub.Proofs.Numerals
import SequencerHub.Proofs.Octets
import SequencerHub.Proofs.Panics
import SequencerHub.Proofs.Parting
import SequencerHub.Proofs.Precedence
import SequencerHub.Proofs.Purge
import SequencerHub.Proofs.Reception
import SequencerHub.Proofs.Records
import SequencerHub.Proofs.Registrations
import SequencerHub.Proofs.Registry
import SequencerHub.Proofs.Replies
import SequencerHub.Proofs.Requests
import SequencerHub.Proofs.Rescue
import SequencerHub.Proofs.RoundTrip
import SequencerHub.Proofs.Routing
import SequencerHub.Proofs.Secrecy
import SequencerHub.Proofs.Service
import SequencerHub.Proofs.Serving
import SequencerHub.Proofs.Shutdown
import SequencerHub.Proofs.Teardown
import SequencerHub.Proofs.Traffic
import SequencerHub.Proofs.Transports
import SequencerHub.Proofs.Verbosity
import SequencerHub.Proofs.WireForms
import SequencerHub.Proofs.Refusals
import SequencerHub.Proofs.Envelopes
import SequencerHub.Proofs.Responses
import SequencerHub.Proofs.Bindings
import SequencerHub.Proofs.Roster
import SequencerHub.Proofs.Assembly
import SequencerHub.Proofs.Catalogue
import SequencerHub.Proofs.Origins
import SequencerHub.Proofs.Sums
import SequencerHub.Proofs.Cursors
import SequencerHub.Proofs.Spellings
import SequencerHub.Proofs.Quotes
import SequencerHub.Proofs.Blocks
import SequencerHub.Proofs.Lexing
import SequencerHub.Proofs.Tokens
import SequencerHub.Proofs.Outline
import SequencerHub.Proofs.Trees
import SequencerHub.Proofs.Reload
import SequencerHub.Proofs.Copies
