import Zonemail.Library.Run
import Zonemail.Library.Table
import Zonemail.Library.Program
import Zonemail.Library.Linearizable
import Zonemail.Library.Reach
import Zonemail.Library.HashMap
import Zonemail.Library.Sweep
import Zonemail.Library.Word
import Zonemail.Text.Unicode
import Zonemail.Text.Strings
import Zonemail.Text.Lowercase
import Zonemail.Text.Folding
import Zonemail.Db.Schema
import Zonemail.Db.Statement
import Zonemail.Db.Effect
import Zonemail.Mail.Headers
import Zonemail.Outbound.Delivery
import Zonemail.Outbound.Worker
import Zonemail.Outbound.Exclusive
import Zonemail.Outbound.Finality
import Zonemail.Outbound.Budget
import Zonemail.Outbound.Enqueue
import Zonemail.Api.Response
import Zonemail.Api.Paging
import Zonemail.Api.Handlers
import Zonemail.Seed
import Zonemail.Api.Addressed
import Zonemail.Api.MailboxRows
import Zonemail.Api.Creates
import Zonemail.Api.Patches
import Zonemail.Api.Zones
import Zonemail.Api.Pages
import Zonemail.Api.Listing
import Zonemail.Inbound.Handler
import Zonemail.Inbound.Lossless
import Zonemail.Inbound.Session
import Zonemail.Inbound.Relay
import Zonemail.Inbound.Transactions
import Zonemail.Outbound.Rows
import Zonemail.Inbound.References
import Zonemail.Inbound.Duplicates
import Zonemail.Inbound.Redelivery
import Zonemail.Inbound.Refused
import Zonemail.Inbound.Addresses
import Zonemail.Api.Spelling
import Zonemail.Api.Directions
import Zonemail.Api.Forwarding
import Zonemail.Dns.Server
import Zonemail.Dns.Answer
import Zonemail.Services.Address
import Zonemail.Services.Manager
import Zonemail.Services.Modes
import Zonemail.Services.Tls
import Zonemail.Auth.Policy
import Zonemail.Auth.Tokens
import Zonemail.Auth.Token
import Zonemail.Auth.Keys
import Zonemail.Auth.Service
import Zonemail.Auth.Verification
import Zonemail.Auth.Secret
import Zonemail.Auth.Guard
import Zonemail.Auth.Cache
import Zonemail.Auth.Rotation
import Zonemail.Auth.Herd
import Zonemail.Api.Sending
import Zonemail.Outbound.Cycle
import Zonemail.Outbound.Transport
import Zonemail.Outbound.Claims
import Zonemail.Outbound.Resend
import Zonemail.Outbound.Cap
import Zonemail.Outbound.Backoff
import Zonemail.Outbound.Drain
import Zonemail.Outbound.Requeue
import Zonemail.Api.Statuses
import Zonemail.Api.RecordTypes
import Zonemail.Library.Surroundings
import Zonemail.Outbound.Moves
import Zonemail.Installation.Machine
import Zonemail.Installation.Fates
import Zonemail.Api.Footprints
import Zonemail.Installation.Origins
import Zonemail.Installation.Keeping
import Zonemail.Gateway.Routes
import Zonemail.Gateway.Requests
import Zonemail.Gateway.Privileges
import Zonemail.Gateway.Refusals
import Zonemail.Directory.Model
import Zonemail.Directory.Refinement
import Zonemail.Directory.Answers
import Zonemail.Auth.Fetcher
import Zonemail.Auth.Trust
