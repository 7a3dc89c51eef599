import Blitz.SignedReceipt
import Blitz.CheckedArith
import Blitz.HashChain
import Blitz.SortedGroups
import Blitz.WatchtowerFault
import Blitz.WatchtowerReceiptScan
import Blitz.WatchtowerHonestLog
import Blitz.WatchtowerCleanLog
import Blitz.ProgramEvidence
import Blitz.CourtEvidence
import Blitz.RewardIndex
import Blitz.Slashing
import Blitz.ProgramAccounts
import Blitz.ProgramRuntime
import Blitz.ProgramProcessor
import Blitz.ProgramEffects
import Blitz.ProgramSolvency
import Blitz.ProgramSteps
import Blitz.ProgramRuns
import Blitz.ProgramFreeExit
import Blitz.ProgramBond
import Blitz.ReceiptLedger
import Blitz.ReceiptWriter
import Blitz.ReceiptWriterRuns
import Blitz.ReceiptPending
import Blitz.ReceiptTickets
import Blitz.ReceiptTicketFates
import Blitz.ReceiptRestarts
import Blitz.LatestIndex
import Blitz.WatchtowerBlockScan
import Blitz.Traces
import Blitz.WatchtowerWithholding
import Blitz.WatchtowerWatch
import Blitz.WatchtowerStrangers
import Blitz.WatchtowerArrival
import Blitz.ProgramTransitions
import Blitz.ProgramFates
import Blitz.ProgramTimeline
import Blitz.ProgramTimelock
import Blitz.ProgramBondFate
import Blitz.ProgramStakers
import Blitz.ProgramFrontRunning
import Blitz.ProgramDonations
import Blitz.CanonicalPair
import Blitz.ConvictionAddress
import Blitz.ProRata
import Blitz.SlashingRuns
import Blitz.ProgramArithmetic
import Blitz.IngressOutcomes
import Blitz.PrefixCodec
import Blitz.SolanaWire
import Blitz.IngressTransactions
import Blitz.WatchtowerParse
import Blitz.WatchtowerContradictions
import Blitz.WatchtowerEvidence
import Blitz.WatchtowerOrder
import Blitz.ReceiptCodec
import Blitz.AppAccounts
import Blitz.AppEvidence
import Blitz.ProgramFeePayer
import Blitz.AppPreview
import Blitz.ReceiptDeadlines
import Blitz.WatchtowerBlockhashRing
import Blitz.Base64
import Blitz.WatchtowerReceiptLog
import Blitz.ExpiringCache
import Blitz.IngressReplay
import Blitz.SchedulerAgreement
import Blitz.SchedulerDuplicates
import Blitz.SchedulerLedger
import Blitz.SchedulerPermit
import Blitz.HighWater
import Blitz.ReplicatorPrimary
import Blitz.ReplicatorReplica
import Blitz.ReplicatorSystem
import Blitz.IntentScheduler
