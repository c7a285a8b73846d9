import OpendssGateway.Gateway.Ledger
import OpendssGateway.Gateway.Metering
import OpendssGateway.Gateway.Budget
import OpendssGateway.Gateway.StreamRun
import OpendssGateway.Gateway.Proxy
import OpendssGateway.Gateway.Deliveries
import OpendssGateway.Library.Heapq
import OpendssGateway.Library.Transition
import OpendssGateway.Library.Uri
import OpendssGateway.Library.Greedy
import OpendssGateway.Scheduler.Basic
import OpendssGateway.Library.Ranked
import OpendssGateway.Scheduler.Conservation
import OpendssGateway.Scheduler.Evolution
import OpendssGateway.Scheduler.Fairness
import OpendssGateway.Scheduler.Limits
import OpendssGateway.Scheduler.Outcomes
import OpendssGateway.Gateway.LedgerRuns
import OpendssGateway.Gateway.Accounts
import OpendssGateway.Gateway.CheckoutRace
import OpendssGateway.Gateway.StreamCharge
import OpendssGateway.Gateway.EngineCalls
import OpendssGateway.Gateway.MagicLinks
import OpendssGateway.Gateway.SessionRuns
import OpendssGateway.Gateway.EngineSeconds
import OpendssGateway.Gateway.RequestIds
import OpendssGateway.Gateway.StreamErrors
import OpendssGateway.Gateway.Signature
import OpendssGateway.Gateway.Origins
import OpendssGateway.Gateway.RateWindow
import OpendssGateway.Gateway.MagicLimits
import OpendssGateway.Gateway.Exchange
import OpendssGateway.Gateway.ExchangeErrors
import OpendssGateway.Gateway.SignatureErrors
import OpendssGateway.Gateway.BodyRead
import OpendssGateway.Gateway.Forwarding
import OpendssGateway.Gateway.EmailGrammar
import OpendssGateway.Gateway.Plans
import OpendssGateway.Gateway.BudgetWindows
import OpendssGateway.Gateway.SessionNames
import OpendssGateway.Gateway.Pages
import OpendssGateway.Gateway.OAuthFlow
import OpendssGateway.Gateway.Forms
import OpendssGateway.Gateway.Config
