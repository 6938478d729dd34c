import YunhouUsers.Inference.Accounting.Literal
import YunhouUsers.Inference.Catalog.SnapshotCache
import YunhouUsers.Inference.Conflicts
import YunhouUsers.Inference.Credentials.Staleness
import YunhouUsers.Inference.Deficit
import YunhouUsers.Inference.Entitlements.Activation
import YunhouUsers.Inference.Entitlements.Convergence
import YunhouUsers.Inference.Entitlements.Selection
import YunhouUsers.Inference.Gateway.Releases
import YunhouUsers.Inference.Gateway.Starvation
import YunhouUsers.Inference.HealthPass
import YunhouUsers.Inference.Providers.Faithfulness
import YunhouUsers.Inference.Providers.ResponsesConsistency
import YunhouUsers.Inference.Providers.ResponsesReplay
import YunhouUsers.Inference.Providers.ResponsesTruncation
import YunhouUsers.Inference.Quota.Estimate
import YunhouUsers.Inference.Routing.Fairness
import YunhouUsers.Inference.WalletSafety.Runs
import YunhouUsers.Inference.WalletSafety.SpendGate
import YunhouUsers.Inference.WalletSync.ExactlyOnce
import YunhouUsers.Inference.WindowActivation
import YunhouUsers.Middleware.RateLimit
import YunhouUsers.Migrate
import YunhouUsers.Payments.PlanChange
import YunhouUsers.Relay.Presence
import YunhouUsers.Relay.Routing
import YunhouUsers.UsageTokens.Deletion
