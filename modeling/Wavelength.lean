import Wavelength.Arkscript.Policy
import Wavelength.Credit.Steady
import Wavelength.Fraud.Escalation
import Wavelength.Ingress.NoLoss
import Wavelength.Ledger.Confluence
import Wavelength.Ledger.Exits
import Wavelength.Lwwallet.TipStream
import Wavelength.Mailbox.Budget
import Wavelength.Mailbox.Fencing
import Wavelength.Mailbox.KeyOrder
import Wavelength.Mailbox.Receipts
import Wavelength.Mailbox.Stranding
import Wavelength.Outbox.Exclusive
import Wavelength.Recovery.Exact
import Wavelength.Recovery.StateCodec
import Wavelength.Swaps.PayFunding
import Wavelength.Swaps.ReceiveFair
import Wavelength.Txconfirm.Fanout
import Wavelength.Txconfirm.Order
import Wavelength.Unrollplan.Agreement
import Wavelength.Unrollplan.Maturity
import Wavelength.Vtxo.Admission
import Wavelength.Vtxo.Ownership
import Wavelength.Vtxo.Release
import Wavelength.Vtxo.Stored
import Wavelength.Vtxo.Thresholds
import Wavelength.Vtxotree.BatchOutput
import Wavelength.Vtxotree.Indices
import Wavelength.Vtxotree.Signatures
import Wavelength.Arktx.Canonical
import Wavelength.Actor.WaitGraph
import Wavelength.Base.Framing
import Wavelength.Recovery.Framing
import Wavelength.Swaps.PayAuthority
