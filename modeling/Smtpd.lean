import Smtpd.Lib.Checked
import Smtpd.Lib.Occurrence
import Smtpd.Lib.Incremental
import Smtpd.Lib.CString
import Smtpd.Lib.Runs
import Smtpd.Lib.History
import Smtpd.Lib.FileSystem
import Smtpd.Lib.Ledger
import Smtpd.Lib.BoundedQueue
import Smtpd.Lib.Leases
import Smtpd.Lib.Shares
import Smtpd.Lib.Reactive
import Smtpd.Lib.Storage
import Smtpd.Buffer
import Smtpd.BufferQueue
import Smtpd.Consume
import Smtpd.Data
import Smtpd.DataUnits
import Smtpd.DataDetection
import Smtpd.DataConservation
import Smtpd.Request
import Smtpd.RequestLine
import Smtpd.RequestLineRun
import Smtpd.RequestStream
import Smtpd.RequestFraming
import Smtpd.RequestBounds
import Smtpd.RequestGrammar
import Smtpd.RequestCapture
import Smtpd.Globals
import Smtpd.UdpServer
import Smtpd.UdpAuthentication
import Smtpd.UdpCommands
import Smtpd.ManagementReplies
import Smtpd.Stm
import Smtpd.Os
import Smtpd.RcptToList
import Smtpd.FileActs
import Smtpd.Session
import Smtpd.Faults
import Smtpd.SessionStep
import Smtpd.Connection
import Smtpd.Exchange
import Smtpd.Dialogue
import Smtpd.DialogueRefinement
import Smtpd.Replies
import Smtpd.Turns
import Smtpd.CommandOrder
import Smtpd.RecipientDomain
import Smtpd.Envelope
import Smtpd.BodyDelivery
import Smtpd.MailFiles
import Smtpd.MailboxConfinement
import Smtpd.InterestAgreement
import Smtpd.Descriptors
import Smtpd.MailTransaction
import Smtpd.ReplyStream
import Smtpd.Pipelining
import Smtpd.Rejection
import Smtpd.CommandSession
import Smtpd.CommandProgress
import Smtpd.Segmentation
import Smtpd.CommandLines
import Smtpd.Conversation
import Smtpd.UdpNoninterference
import Smtpd.Counters
import Smtpd.Server
import Smtpd.Admission
import Smtpd.MailCommit
import Smtpd.ByteMetric
import Smtpd.BufferFifo
import Smtpd.DataStart
import Smtpd.StmProtocol
import Smtpd.AbandonedCommand
import Smtpd.Selector
import Smtpd.SelectorTable
import Smtpd.SelectorBounds
import Smtpd.SelectorDispatch
import Smtpd.SelectorClose
import Smtpd.SelectorCapacity
import Smtpd.PassiveAccept
import Smtpd.RequestErrored
import Smtpd.Parser
import Smtpd.ParserUtils
import Smtpd.SockBlockingCopy
import Smtpd.SockaddrToHuman
import Smtpd.UserLimit
import Smtpd.Ownership
import Smtpd.MailStorage
import Smtpd.Spool
import Smtpd.Safety
import Smtpd.Interference
import Smtpd.SelectorRounds
import Smtpd.Program
import Smtpd.Coherence
import Smtpd.ServingRounds
import Smtpd.Lifetime
import Smtpd.MainLoop
import Smtpd.Service
