import AccessGate.Main
import AccessGate.Rehearsal
import AccessGate.Remote.InFlight
import AccessGate.Text.Utf8.Inverse
import AccessGate.Proofs.Access.Settling
import AccessGate.Proofs.Access.Changing
import AccessGate.Proofs.Access.Ways
import AccessGate.Proofs.Access.Acceptance
import AccessGate.Proofs.Access.Runs
import AccessGate.Proofs.Access.Vouching
import AccessGate.Proofs.Radius.Layout
import AccessGate.Proofs.Radius.Signing
import AccessGate.Proofs.Radius.Lookups
import AccessGate.Proofs.Radius.Delivery
import AccessGate.Proofs.Radius.Groups
import AccessGate.Proofs.Radius.Passwords
import AccessGate.Proofs.Radius.RoundTrip
import AccessGate.Proofs.Radius.Grammar
import AccessGate.Proofs.Store.Live
import AccessGate.Proofs.Access.Sessions
import AccessGate.Proofs.Access.Conversations
import AccessGate.Proofs.Radius.Tokens
import AccessGate.Proofs.Access.Challenges
import AccessGate.Proofs.Text.Numerals
import AccessGate.Proofs.Net.Printed
import AccessGate.Proofs.Store.Telling
import AccessGate.Proofs.Server.Arrivals
import AccessGate.Proofs.Server.Retransmissions
import AccessGate.Proofs.Server.Rejections
import AccessGate.Proofs.Radius.Values
import AccessGate.Proofs.Access.Keeping
import AccessGate.Proofs.Server.Replies
import AccessGate.Proofs.Access.Stores
import AccessGate.Proofs.Access.Profiles
import AccessGate.Proofs.Store.Ideal
import AccessGate.Proofs.Remote.Slots
import AccessGate.Proofs.Remote.Requests
import AccessGate.Proofs.FirstFactor.Directory
import AccessGate.Proofs.Radius.Restating
import AccessGate.Proofs.Remote.Relaying
import AccessGate.Proofs.Config.Usable
import AccessGate.Proofs.Radius.Definitions
import AccessGate.Proofs.Radius.Contributions
import AccessGate.Proofs.Radius.Serialization
import AccessGate.Proofs.Radius.Comparing
import AccessGate.Proofs.Access.Granting
import AccessGate.Proofs.Net.Reading
import AccessGate.Proofs.Json.Reading
import AccessGate.Proofs.Json.Records
import AccessGate.Proofs.Config.Files
import AccessGate.Proofs.Store.Pressure
import AccessGate.Proofs.Store.Ages
import AccessGate.Proofs.Access.Rules
import AccessGate.Proofs.Server.Recognition
import AccessGate.Proofs.Access.Spellings
import AccessGate.Proofs.FirstFactor.Binds
import AccessGate.Proofs.Net.Headers
import AccessGate.Proofs.Config.Resolution
import AccessGate.Proofs.FirstFactor.Requested
import AccessGate.Proofs.Text.Words
import AccessGate.Proofs.FirstFactor.GroupNames
import AccessGate.Proofs.Radius.AttributeHistories
import AccessGate.Proofs.Radius.Loading
