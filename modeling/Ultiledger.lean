import Ultiledger.AdjustedOffers
import Ultiledger.CommitIntervals
import Ultiledger.CommitVotes
import Ultiledger.CompositeValue
import Ultiledger.CounterBumps
import Ultiledger.DeletedTransactions
import Ultiledger.DownloadedLedgers
import Ultiledger.DurableLedgers
import Ultiledger.EntryCounts
import Ultiledger.ExchangeConservation
import Ultiledger.FailedSubmissions
import Ultiledger.FederatedAcceptance
import Ultiledger.ForwardBallots
import Ultiledger.MirroredLiabilities
import Ultiledger.NestedNominations
import Ultiledger.OfferIndexes
import Ultiledger.OrderedDownloads
import Ultiledger.PathPayments
import Ultiledger.PendingFees
import Ultiledger.PreparedPair
import Ultiledger.RecursionLimit
import Ultiledger.RecursiveSlices
import Ultiledger.ReplacedOffers
import Ultiledger.Replay
import Ultiledger.RoundHashes
import Ultiledger.SignedStatements
import Ultiledger.Solvency
import Ultiledger.StatementDelivery
import Ultiledger.TrustLimits
import Ultiledger.TxSetKey
import Ultiledger.UnforkedLedgers
import Ultiledger.ValidatedValues
