import Strkd.Desktop.ApprovalRuns
import Strkd.Lib.Doomed
import Strkd.Lib.Since
import Strkd.Prover.RecordRuns
import Strkd.Prover.Reports
import Strkd.Rpc.AccountRuns
import Strkd.Rpc.ClientWrites
import Strkd.Rpc.Estimates
import Strkd.Rpc.FeeBounds
import Strkd.Rpc.IssueLinks
import Strkd.Rpc.Scrubbing
import Strkd.Rpc.Totals
import Strkd.Rpc.Transport
import Strkd.Service.AutoLock
import Strkd.Service.Batches
import Strkd.Service.Blindness
import Strkd.Service.Consent
import Strkd.Service.Decisions
import Strkd.Service.Declares
import Strkd.Service.Grants
import Strkd.Service.Guesses
import Strkd.Service.KeyBranches
import Strkd.Service.Leaving
import Strkd.Service.Lock
import Strkd.Service.Onboarding
import Strkd.Service.Persistence
import Strkd.Service.Reattach
import Strkd.Service.Scopes
import Strkd.Service.Signers
import Strkd.Service.Tokens
import Strkd.Strk20.Decoding
import Strkd.Strk20.Domains
import Strkd.Strk20.Losses
import Strkd.Strk20.Outgoing
import Strkd.Strk20.Packing
import Strkd.Strk20.Relay
import Strkd.Strk20.Slots
import Strkd.Wallet.PythonJson
