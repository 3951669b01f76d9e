import Shentu.Shield.PayoutSplit
import Shentu.Shield.StakeRenewal
import Shentu.PoolClosing
import Shentu.ClaimDeposits
import Shentu.DepositsSettled
import Shentu.Oracle.Collateral
import Shentu.Oracle.Authority
import Shentu.Oracle.Result
import Shentu.Oracle.PaidWithdraws
import Shentu.Oracle.Aggregation
import Shentu.CertifiedTotal
import Shentu.Shield.StakeBacking
import Shentu.Auth.PayoutUnlock
import Shentu.Cert.Identities
import Shentu.CVM.FreshAddresses
import Shentu.ExpiryQueue
import Shentu.CVM.Operations
import Shentu.Shield.SecureSplit
import Shentu.Shield.UnbondingWindow
import Shentu.Shield.SecureProvider
import Shentu.ClaimFrame
import Shentu.Reimbursements
import Shentu.WithdrawHistories
import Shentu.Shield.FeeSplit
import Shentu.Shield.DelegationExact
import Shentu.Oracle.Totals
import Shentu.Cert.Registry
import Shentu.Mint
