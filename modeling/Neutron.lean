import Neutron.IbcHooks.Denom
import Neutron.Transfer.Binding
import Neutron.App.AccountLock
import Neutron.Dex.Reentrancy
import Neutron.Dex.NestedWithdrawal
import Neutron.Dex.MakerPayout
import Neutron.Dex.RoundTrip
import Neutron.Dex.AutoswapFee
import Neutron.Dex.TickInverse
import Neutron.Dex.JitLife
import Neutron.Dex.FractionalKeys
import Neutron.Dex.OrderAccounting
import Neutron.Dex.PlaceTranche
import Neutron.Dex.ScientificValue
import Neutron.Dex.RouteAbort
import Neutron.Cron.Spacing
import Neutron.ContractManager.Genesis
import Neutron.ContractManager.Replay
import Neutron.InterchainQueries.Genesis
import Neutron.InterchainQueries.ServicePeriod
import Neutron.App.Redelegations
import Neutron.Utils.Pagination
import Neutron.TokenFactory.Independence
import Neutron.InterchainQueries.Deposits
import Neutron.GlobalFee.Strictness
import Neutron.Dex.KeyIsolation
import Neutron.TokenFactory.Denoms
