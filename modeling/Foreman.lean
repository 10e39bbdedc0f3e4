import Foreman.Main
import Foreman.Proofs.Server.Frame
import Foreman.Proofs.Server.Registry
import Foreman.Proofs.Server.Run
import Foreman.Proofs.Server.Intake
import Foreman.Proofs.Server.Slots
import Foreman.Proofs.Server.IntakeStep
import Foreman.Proofs.Server.Delivery
import Foreman.Proofs.Auth.Resolution
import Foreman.Proofs.Account
import Foreman.Proofs.Store.Results
import Foreman.Proofs.Server.Rewards
import Foreman.Proofs.Text.Decimal
import Foreman.Proofs.Json.Printed
import Foreman.Proofs.Json.Values
import Foreman.Proofs.Message
import Foreman.Proofs.Text.Base64
import Foreman.Proofs.Auth.Signature
import Foreman.Proofs.Server.Backstage
import Foreman.Proofs.Server.Sending
import Foreman.Proofs.Server.BackstageStep
import Foreman.Proofs.Server.Origin
import Foreman.Proofs.Server.Routing
import Foreman.Proofs.Server.Drain
import Foreman.Proofs.Store.Accounts
import Foreman.Proofs.Store.Tally
import Foreman.Proofs.Store.Resets
import Foreman.Proofs.Auth.Issuing
import Foreman.Proofs.Auth.PasswordChange
import Foreman.Proofs.Auth.Outage
import Foreman.Proofs.Server.Broadcast
import Foreman.Proofs.Http.Run
import Foreman.Proofs.Http.Submission
import Foreman.Proofs.WorkerKey
import Foreman.Proofs.Server.Outline
import Foreman.Proofs.Server.OutlineStep
import Foreman.Proofs.Server.Roll
import Foreman.Proofs.Store.Books
import Foreman.Proofs.Http.Login
import Foreman.Proofs.Http.Upgrade
import Foreman.Proofs.Server.OutlineAct
import Foreman.Proofs.Server.Blind
import Foreman.Proofs.Http.Refusal
import Foreman.Proofs.Json.Size
import Foreman.Proofs.Server.Headroom
import Foreman.Proofs.Server.Mailbox
import Foreman.Proofs.Server.MailboxStep
import Foreman.Proofs.Server.Outbox
import Foreman.Proofs.Server.Waiting
import Foreman.Proofs.Server.Keepalive
import Foreman.Proofs.Config.Layers
import Foreman.Proofs.Config.KeepalivePair
import Foreman.Proofs.Config.ServiceToken
import Foreman.Proofs.Config.Binding
import Foreman.Proofs.Config.Bounds
import Foreman.Proofs.Config.ServiceAccess
import Foreman.Proofs.Toml.Keys
import Foreman.Proofs.Json.Grammar
import Foreman.Proofs.Message.Members
import Foreman.Proofs.Server.Fanout
import Foreman.Proofs.Json.Literal
import Foreman.Proofs.Http.OrderFrame
import Foreman.Proofs.Store.Deletions
import Foreman.Proofs.Store.Failures
import Foreman.Proofs.Store.Spelling
import Foreman.Proofs.Auth.Lifetime
import Foreman.Proofs.Text.Hex
import Foreman.Proofs.Net.Spelling
import Foreman.Proofs.Net.Printed
import Foreman.Proofs.Net.Listen
import Foreman.Proofs.Http.Handshake
import Foreman.Proofs.Server.Counting
import Foreman.Proofs.Server.Balance
