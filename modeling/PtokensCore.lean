import PtokensCore.Rust.Basic
import PtokensCore.Rust.Str
import PtokensCore.Digits
import PtokensCore.Base58
import PtokensCore.Bitcoin.Script
import PtokensCore.Bitcoin.Address
import PtokensCore.Bitcoin.Transaction
import PtokensCore.Bitcoin.Consensus
import PtokensCore.SerdeJson.Syntax
import PtokensCore.SerdeJson.RoundTrip
import PtokensCore.SerdeJson.Serde
import PtokensCore.SerdeJson.HexForms
import PtokensCore.Btc.Types
import PtokensCore.Btc.BtcUtils
import PtokensCore.Btc.GetDepositInfoHashMap
import PtokensCore.Btc.FilterP2shDepositTxs
import PtokensCore.Btc.BlockInDbFormat
import PtokensCore.Traits
import PtokensCore.Utils
import PtokensCore.Btc.BtcState
import PtokensCore.Eth.EthState
import PtokensCore.Eth.EthInitUtils
